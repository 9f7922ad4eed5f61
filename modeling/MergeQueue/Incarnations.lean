import MergeQueue.PipelineSteps
import MergeQueue.Processor
import MergeQueue.PriorityOrder

/-!
# Rows that take the place of another

The work on a merge request goes on for hours.  Meanwhile a webhook may end the row that the
work was started for and add the merge request again, as another row.  Completions name the
row by its id; the other writes name the merge request and find whatever row it has.
-/

namespace MergeQueue

open Interleave (Program System Config Event Move)
open Interleave.Program (Asks Leaves Relies Yields)

/-! ## What the work on one row asks for -/

/-- The task has a state machine of the merge request, made for the row `q`, or it has none. -/
structure Local.Drives (mrIid : ℕ) (q : Option ℕ) (s : Local) : Prop where
  machine : ∀ m, s.machine = some m → m.mrIid = mrIid ∧ m.queueId = q
  without : s.machine = none → q = none

theorem Local.drives_of_none {mrIid : ℕ} {s : Local} (h : s.machine = none) :
    s.Drives mrIid none where
  machine m hm := by
    rw [h] at hm
    cases hm
  without _ := rfl

/-- The calls of the work on the row `rowId`, with a state machine made for the row `q`. -/
def QueueOp.Works (mrIid rowId : ℕ) (q : Option ℕ) : QueueOp → Prop
  | updateMrState .. | markStaleWarningSent .. => True
  | completeMr _ _ _ expectedQueueId => expectedQueueId = none
  | prepareCompletion _ iid request => iid = mrIid ∧ request.queueId = q
  | saveCompletionProgress _ queueId _ => queueId = q.getD rowId
  | finalizeCompletion _ item _ => item.mrIid = mrIid ∧ item.queueId = q.getD rowId
  | op => op.plain = true

def Op.Works (mrIid rowId : ℕ) (q : Option ℕ) : Op → Prop
  | db op => op.Works mrIid rowId q
  | _ => True

/-- What the queue answers, where only the row `rowId` is found without naming its id. -/
def Op.Finds (rowId : ℕ) : (op : Op) → Except PyError op.Answer → Prop
  | db (.prepareCompletion _ iid request), .ok (some item) =>
      item.mrIid = iid ∧ item.queueId = request.queueId.getD rowId
  | db (.getQueueItem _ iid), .ok (some item) => item.mrIid = iid
  | _, _ => True

theorem QueueOp.works_of_plain {op : QueueOp} {mrIid rowId : ℕ} {q : Option ℕ}
    (h : op.plain = true) : op.Works mrIid rowId q := by
  cases op <;> first | exact h | cases h

/-- The program works on the row `rowId` with a state machine made for the row `q`. -/
abbrev Prog.Works {α : Type} (mrIid rowId : ℕ) (q : Option ℕ) (p : Prog α) : Prop :=
  p.Relies (Op.Finds rowId) (fun s op ↦ s.Drives mrIid q ∧ op.Works mrIid rowId q)
    (Local.Drives mrIid q)

section Programs

variable {settings : Settings} {mrIid rowId : ℕ} {q : Option ℕ} {α : Type}

theorem works_await {op : Op} (h : op.Works mrIid rowId q) :
    (Prog.await op).Works mrIid rowId q :=
  Relies.call fun _ hs ↦ ⟨hs, h⟩

theorem works_of_leaves {permits : Op → Prop} {p : Prog α} (h : p.Leaves permits)
    (hpermits : ∀ op, permits op → op.Works mrIid rowId q) : p.Works mrIid rowId q :=
  h.relies fun _ op hs hop ↦ ⟨hs, hpermits op hop⟩

theorem Op.works_of_tends {op : Op} (h : op.tends = true) : op.Works mrIid rowId q := by
  cases op with
  | db op => exact QueueOp.works_of_plain (Op.plain_of_tends h)
  | _ => trivial

theorem works_of_tends {p : Prog α} (h : p.Tends) : p.Works mrIid rowId q :=
  works_of_leaves h fun _ ↦ Op.works_of_tends

theorem works_catching {handles : PyError → Bool} {p : Prog α} {handler : PyError → Prog α}
    (hp : p.Works mrIid rowId q) (hhandler : ∀ e, (handler e).Works mrIid rowId q) :
    (catching handles p handler).Works mrIid rowId q := by
  refine Relies.handle hp fun e ↦ ?_
  split_ifs
  · exact hhandler e
  · exact Relies.throw e

theorem works_withLock {lock : LockName} {body : Prog α} (h : body.Works mrIid rowId q) :
    (Prog.withLock lock body).Works mrIid rowId q :=
  Relies.bind (works_await trivial) fun _ ↦ Relies.ensuring h (works_await trivial)

/-- The state machine of the task is the one it works with. -/
theorem works_machine {f : Machine → Prog α}
    (h : ∀ m : Machine, m.mrIid = mrIid → m.queueId = q → (f m).Works mrIid rowId q) :
    Prog.Works mrIid rowId q (Prog.machine >>= f) := by
  intro s hs
  have hmachine : Prog.machine.Asks (Op.Finds rowId)
      (fun s op ↦ s.Drives mrIid q ∧ op.Works mrIid rowId q) (Local.Drives mrIid q)
      (fun m s ↦ (m.mrIid = mrIid ∧ m.queueId = q) ∧ s.Drives mrIid q)
      fun _ ↦ Local.Drives mrIid q := by
    have hread : Asks (Op.Finds rowId) (fun s op ↦ s.Drives mrIid q ∧ op.Works mrIid rowId q)
        (Local.Drives mrIid q) (Program.read : Prog Local)
        (fun s' s ↦ s' = s ∧ s.Drives mrIid q) fun _ ↦ Local.Drives mrIid q :=
      Asks.read fun s hs ↦ ⟨rfl, hs⟩
    unfold Prog.machine
    refine Asks.bind hread fun s' ↦ ?_
    cases hm : s'.machine with
    | none => exact Asks.throw fun _ h ↦ h.2
    | some m =>
        refine Asks.ret fun s hs ↦ ?_
        obtain ⟨rfl, hs⟩ := hs
        exact ⟨hs.machine m hm, hs⟩
  exact Asks.bind hmachine (fun m s hm ↦ h m hm.1.1 hm.1.2 s hm.2) s hs

theorem works_keep {m : Machine} (hiid : m.mrIid = mrIid) (hq : m.queueId = q) :
    (MRStateMachine.keep m).Works mrIid rowId q :=
  Relies.update fun _ _ ↦
    { machine := fun m' hm' ↦ by
        cases hm'
        exact ⟨hiid, hq⟩
      without := fun hnone ↦ by cases hnone }

theorem works_updateMrState {projectId iid : ℕ} {state : Status} {extra : QueueManager.Extra} :
    (Prog.updateMrState projectId iid state extra).Works mrIid rowId q :=
  Relies.bind (works_await trivial) fun _ ↦ Relies.update fun _ hs ↦ ⟨hs.machine, hs.without⟩

theorem works_getQueueItem {projectId iid : ℕ} :
    (Prog.getQueueItem projectId iid).Works mrIid rowId q := works_await rfl

theorem works_pollUntilDone {timeoutSeconds interval : ℕ} {pollFn : Prog (Option α)}
    (h : pollFn.Works mrIid rowId q) :
    (pollUntilDone settings timeoutSeconds interval pollFn).Works mrIid rowId q := by
  refine Relies.bind (works_await trivial) fun start ↦ Relies.loop (fun _ ↦ ?_) _ _
  refine Relies.bind (works_await trivial) fun stopping ↦ ?_
  split_ifs
  · exact Relies.ret _
  · refine Relies.bind (works_await trivial) fun before ↦ ?_
    split_ifs
    · exact Relies.ret _
    · refine Relies.bind h fun polled ↦ ?_
      cases polled with
      | some result => exact Relies.ret _
      | none =>
          refine Relies.bind (works_await trivial) fun after ↦ ?_
          split_ifs
          · exact Relies.ret _
          · refine Relies.bind (works_await trivial) fun slept ↦ ?_
            split_ifs
            · exact Relies.ret _
            · exact Relies.ret _

/-- A comment belongs to the work, whatever it tells. -/
theorem works_announce (iid : ℕ) (notice : Notice) :
    (MRNotifier.announce settings iid notice).Works mrIid rowId q := by
  by_cases houtcome : ∃ template, notice.status = .outcome template
  · obtain ⟨template, hstatus⟩ := houtcome
    unfold MRNotifier.announce
    rw [hstatus]
    refine works_of_leaves (MRNotifier.notify_outcome_leaves _ _ _) fun op hop ↦ ?_
    rcases hop with htends | rfl
    · exact Op.works_of_tends htends
    · trivial
  · exact works_of_tends (tends_announce fun template h ↦ houtcome ⟨template, h⟩)

end Programs

/-! ## The completion of the row -/

namespace QueueCompletion

variable {settings : Settings} {mrIid rowId : ℕ} {q : Option ℕ}

theorem records_works {item : QueueItem} (hid : item.queueId = q.getD rowId) :
    Op.Records settings item (fun _ ↦ True) (Op.Works mrIid rowId q) where
  tends := Op.works_of_tends
  comment _ := trivial
  progress _ := hid

/-- Only the row that was prepared is finished, and only under its own merge request. -/
theorem works_finish {item : QueueItem} (hiid : item.mrIid = mrIid)
    (hid : item.queueId = q.getD rowId) : (finish settings item).Works mrIid rowId q := by
  have hrecords : Op.Records settings item (fun _ ↦ True) (Op.Works mrIid rowId q) :=
    records_works hid
  have hworks {α : Type} {p : Prog α} {post : α → Prop}
      (h : p.Yields (Op.Works mrIid rowId q) post) : p.Works mrIid rowId q :=
    works_of_leaves h.leaves fun _ h ↦ h
  unfold finish
  split
  · exact Relies.throw _
  · refine Relies.bind (hworks (yields_deliverComment progressive_true hrecords trivial))
      fun payload ↦ ?_
    refine Relies.bind (hworks (yields_cleanup progressive_true hrecords trivial))
      fun payload ↦ ?_
    refine Relies.call_bind (fun _ hs ↦ ⟨hs, rfl⟩) fun found hfound ↦ ?_
    cases found with
    | none => exact Relies.ret ()
    | some current =>
        have hcurrent : current.mrIid = item.mrIid := hfound
        simp only
        split_ifs with hsame
        · refine Relies.bind (hworks (yields_settleRequeue progressive_true hrecords trivial _))
            fun payload ↦ ?_
          refine Relies.bind (works_await ⟨hcurrent.trans hiid, hsame.trans hid⟩) fun done ↦ ?_
          cases done with
          | false => exact Relies.ret ()
          | true => exact works_of_tends (tends_afterCompletion payload)
        · exact Relies.ret ()

/-- The answer to a call under a lock. -/
theorem works_withLock_bind {α : Type} {lock : LockName} {op : Op} {f : op.Answer → Prog α}
    (hop : op.Works mrIid rowId q)
    (hf : ∀ a, op.Finds rowId (.ok a) → (f a).Works mrIid rowId q) :
    Prog.Works mrIid rowId q (Prog.withLock lock (Prog.await op) >>= f) := by
  have hanswer : (Prog.withLock lock (Prog.await op)).Asks (Op.Finds rowId)
      (fun s op ↦ s.Drives mrIid q ∧ op.Works mrIid rowId q) (Local.Drives mrIid q)
      (fun a s ↦ op.Finds rowId (.ok a) ∧ s.Drives mrIid q) fun _ ↦ Local.Drives mrIid q := by
    refine Asks.bind (works_await trivial) fun _ ↦ Asks.ensuring
      (Asks.call (fun _ hs ↦ ⟨hs, hop⟩) (fun _ _ hs ha ↦ ⟨ha, hs⟩) fun _ _ hs ↦ hs)
      (fun a ↦ ?_) fun _ ↦ works_await trivial
    exact Asks.call (fun _ hs ↦ ⟨hs.2, trivial⟩) (fun _ _ hs _ ↦ hs) fun _ _ hs ↦ hs.2
  exact Asks.bind hanswer fun a s hs ↦ hf a hs.1 s hs.2

theorem works_complete {request : CompletionRequest} (hq : request.queueId = q) :
    (complete settings mrIid request).Works mrIid rowId q := by
  refine works_withLock (works_withLock_bind ⟨rfl, hq⟩ fun found hfound ↦ ?_)
  cases found with
  | none => exact Relies.ret ()
  | some item =>
      obtain ⟨hiid, hid⟩ : item.mrIid = mrIid ∧ item.queueId = request.queueId.getD rowId := hfound
      rw [hq] at hid
      have hview : (Prog.takeView item.state).Works mrIid rowId q :=
        Relies.update fun _ hs ↦ ⟨hs.machine, hs.without⟩
      exact Relies.bind hview fun _ ↦ works_finish hiid hid

end QueueCompletion

/-! ## The state machine -/

namespace MRStateMachine

variable {settings : Settings} {mrIid rowId : ℕ} {q : Option ℕ}

theorem works_setContext (f : MachineContext → MachineContext) :
    (setContext f).Works mrIid rowId q :=
  works_machine fun _ hiid hq ↦ works_keep hiid hq

/-- The comment about a place in the queue. -/
theorem works_onEnterQueued {m : Machine} (hquiet : m.suppressQueuedNotification = false) :
    (onEnterQueued settings m).Works mrIid rowId q := by
  unfold onEnterQueued
  rw [hquiet, if_neg (by decide)]
  refine Relies.bind (works_of_tends (tends_getQueuePosition _ _)) fun position ↦ ?_
  refine Relies.bind (works_of_tends QueuePositionNotifier.tends_getQueueLength) fun total ↦ ?_
  refine Relies.bind (works_await trivial) fun queuedAt ↦ ?_
  exact Relies.bind (works_announce _ _) fun _ ↦ works_of_tends (tends_broadcast settings)

section Callbacks

variable {m : Machine} (hiid : m.mrIid = mrIid) (hq : m.queueId = q)

include hiid hq

theorem works_finishCompletion (request : CompletionRequest) :
    (finishCompletion settings m request).Works mrIid rowId q := by
  refine Relies.bind (works_of_tends QueuePositionNotifier.tends_capturePositionsIfEnabled)
    fun out ↦ ?_
  rw [← hiid]
  exact QueueCompletion.works_complete hq

theorem works_onEnterMerged : (onEnterMerged settings m).Works mrIid rowId q := by
  refine Relies.bind works_getQueueItem fun item ↦ ?_
  refine Relies.bind (works_await trivial) fun mergedAt ↦ ?_
  exact Relies.bind (works_await trivial) fun finish ↦ works_finishCompletion hiid hq _

theorem works_onEnterFailed : (onEnterFailed settings m).Works mrIid rowId q := by
  refine Relies.bind (works_await trivial) fun failedAt ↦ ?_
  refine Relies.bind (works_of_tends (tends_timeoutDuration m)) fun duration ↦ ?_
  exact works_finishCompletion hiid hq _

theorem works_onEnterRemoved : (onEnterRemoved settings m).Works mrIid rowId q := by
  have hfinish (request : CompletionRequest) :
      (finishCompletion settings m request).Works mrIid rowId q :=
    works_finishCompletion hiid hq request
  have hlate (reason : RemovalReason) : Prog.Works mrIid rowId q (do
      let item ← Prog.getQueueItem m.projectId m.mrIid
      let at₁ ← Prog.now
      let at₂ ← Prog.now
      finishCompletion settings m
        (.removed reason m.context m.targetBranch at₁ (durationOf item at₂) 0)) := by
    refine Relies.bind works_getQueueItem fun item ↦ ?_
    refine Relies.bind (works_await trivial) fun at₁ ↦ ?_
    exact Relies.bind (works_await trivial) fun at₂ ↦ hfinish _
  refine Relies.bind (works_await trivial) fun removedAt ↦ ?_
  split
  · exact hlate _
  · exact hlate _
  · exact hfinish _
  · exact Relies.bind (works_of_tends (tends_getQueuePosition _ _)) fun _ ↦ hfinish _
  · exact Relies.bind (works_of_tends (tends_getQueuePosition _ _)) fun _ ↦ hfinish _

theorem works_onEnter : (onEnter settings m).Works mrIid rowId q := by
  have hbroadcast : (broadcast settings).Works mrIid rowId q :=
    works_of_tends (tends_broadcast settings)
  unfold onEnter
  split_ifs
  · exact works_keep hiid hq
  · split
    · cases hquiet : m.suppressQueuedNotification with
      | false => exact works_onEnterQueued hquiet
      | true =>
          rw [onEnterQueued, hquiet, if_pos rfl]
          exact works_keep hiid hq
    · exact Relies.bind works_updateMrState fun _ ↦ Relies.bind (works_await trivial) fun _ ↦
        Relies.bind (works_announce _ _) fun _ ↦ hbroadcast
    · exact Relies.bind works_updateMrState fun _ ↦ Relies.bind (works_await trivial) fun _ ↦
        Relies.bind (works_announce _ _) fun _ ↦ hbroadcast
    · exact Relies.bind works_updateMrState fun _ ↦
        Relies.bind (works_announce _ _) fun _ ↦ hbroadcast
    · exact works_onEnterMerged hiid hq
    · exact works_onEnterFailed hiid hq
    · exact works_onEnterRemoved hiid hq

end Callbacks

theorem works_fire (event : MachineEvent) : (fire settings event).Works mrIid rowId q := by
  refine works_machine fun m hiid hq ↦ ?_
  split
  · exact Relies.throw _
  · exact Relies.bind (works_keep hiid hq) fun _ ↦ works_onEnter hiid hq

/-! ### Triggers -/

theorem works_triggerStartProcessing : (triggerStartProcessing settings).Works mrIid rowId q :=
  Relies.bind (works_setContext _) fun _ ↦ works_fire _

theorem works_triggerRebaseComplete (pipelineId : ℕ) (pipelineUrl expectedSha : String) :
    (triggerRebaseComplete settings pipelineId pipelineUrl expectedSha).Works mrIid rowId q :=
  Relies.bind (works_setContext _) fun _ ↦ works_fire _

theorem works_triggerRebaseFailed (conflictedFiles : List String) (errorMessage : String) :
    (triggerRebaseFailed settings conflictedFiles errorMessage).Works mrIid rowId q :=
  Relies.bind (works_setContext _) fun _ ↦ works_fire _

theorem works_triggerConflictDuringTesting (conflictedFiles : List String)
    (errorMessage : String) :
    (triggerConflictDuringTesting settings conflictedFiles errorMessage).Works mrIid rowId q :=
  Relies.bind (works_setContext _) fun _ ↦ works_fire _

theorem works_triggerPipelineFailed (failedJobs : List String) (retriedJobs : List (String × ℕ))
    (errorMessage : String) :
    (triggerPipelineFailed settings failedJobs retriedJobs errorMessage).Works mrIid rowId q :=
  Relies.bind (works_setContext _) fun _ ↦ works_fire _

theorem works_triggerMergeFailed (errorMessage : String) :
    (triggerMergeFailed settings errorMessage).Works mrIid rowId q :=
  Relies.bind (works_setContext _) fun _ ↦ works_fire _

theorem works_triggerResetToQueued : (triggerResetToQueued settings).Works mrIid rowId q := by
  refine works_machine fun m hiid hq ↦ ?_
  refine Relies.bind (works_keep hiid hq) fun _ ↦ ?_
  exact Relies.bind (works_fire _) fun _ ↦ works_updateMrState

theorem works_triggerMarkRemoved (reason : RemovalReason) :
    (triggerMarkRemoved settings reason).Works mrIid rowId q :=
  works_machine fun _ hiid hq ↦ Relies.bind (works_keep hiid hq) fun _ ↦ works_fire _

theorem works_triggerTimeout (maxWaitHours : ℕ) :
    (triggerTimeout settings maxWaitHours).Works mrIid rowId q := by
  refine works_machine fun m hiid hq ↦ Relies.bind (works_keep hiid hq) fun _ ↦ ?_
  split
  · exact works_fire _
  · exact Relies.ret ()

theorem works_notifyStaleWarning (warningHours : ℕ) :
    (notifyStaleWarning settings warningHours).Works mrIid rowId q := by
  refine works_machine fun m _ _ ↦ Relies.bind works_getQueueItem fun item ↦ ?_
  refine Relies.bind (works_of_tends (tends_getQueuePosition _ _)) fun position ↦ ?_
  refine Relies.bind (works_await trivial) fun queuedAt ↦ ?_
  exact Relies.bind (works_await trivial) fun finish ↦ works_announce _ _

theorem works_notifyRebaseDuringTesting (oldPipelineId : Option ℕ)
    (newPipelineId rebaseCount maxAttempts : ℕ) (expectedSha : String) :
    (notifyRebaseDuringTesting settings oldPipelineId newPipelineId rebaseCount maxAttempts
      expectedSha).Works mrIid rowId q := by
  refine works_machine fun m _ _ ↦ Relies.bind works_updateMrState fun _ ↦ ?_
  refine Relies.bind (works_of_tends (MRNotifier.tends_buildPipelineUrl _)) fun url ↦ ?_
  exact Relies.bind (works_setContext _) fun _ ↦ works_announce _ _

theorem works_notifyJobRetry (pipelineId : ℕ) (pipelineUrl : String) (retriedJobs : List String)
    (retriedCounts : List (String × ℕ)) (maxRetries : ℕ) :
    (notifyJobRetry settings pipelineId pipelineUrl retriedJobs retriedCounts maxRetries).Works
      mrIid rowId q :=
  works_machine fun _ _ _ ↦ works_announce _ _

end MRStateMachine

/-! ## Rebasing -/

section Checks

variable {settings : Settings} {mrIid rowId : ℕ} {q : Option ℕ}

theorem works_verifyMrInQueue (iid : ℕ) :
    (verifyMrInQueue settings iid).Works mrIid rowId q := by
  refine works_catching (Relies.bind (works_await trivial) fun mr ↦ ?_) fun _ ↦ Relies.ret _
  split_ifs
  · refine Relies.bind (works_catching ?_ fun _ ↦ Relies.ret ()) fun _ ↦ Relies.ret _
    exact Relies.bind (works_await trivial) fun _ ↦ Relies.ret ()
  · exact Relies.ret _
  · exact Relies.ret _
  · exact Relies.ret _

theorem works_waitForRebaseCompletion (iid timeoutSeconds interval : ℕ)
    (conflictPrefix timeoutMessage shutdownMessage : String) :
    (waitForRebaseCompletion settings iid timeoutSeconds interval conflictPrefix timeoutMessage
      shutdownMessage).Works mrIid rowId q := by
  refine Relies.bind (works_pollUntilDone ?_) fun outcome ↦ ?_
  · refine Relies.bind (works_await trivial) fun status ↦ ?_
    simp only
    split_ifs
    · exact Relies.throw _
    · exact Relies.ret _
    · exact Relies.ret _
  · cases outcome with
    | completed => exact Relies.ret ()
    | shutdownRequested => exact Relies.throw _
    | timedOut => exact Relies.throw _

end Checks

namespace RebaseHandler

variable {settings : Settings} {mrIid rowId : ℕ} {q : Option ℕ}

theorem works_waitForPostRebasePipeline (iid : ℕ) (old : RebaseContext) :
    (waitForPostRebasePipeline settings iid old).Works mrIid rowId q := by
  refine Relies.bind (works_pollUntilDone ?_) fun outcome ↦ ?_
  · refine Relies.bind (works_await trivial) fun mr ↦ ?_
    split_ifs
    · exact Relies.ret _
    · refine Relies.bind (works_await trivial) fun pipeline ↦ ?_
      cases pipeline with
      | none => exact Relies.ret _
      | some pipeline =>
          simp only
          split_ifs
          · exact Relies.ret _
          · exact Relies.ret _
          · exact Relies.ret _
  · cases outcome with
    | completed result => exact Relies.ret _
    | shutdownRequested => exact Relies.ret _
    | timedOut =>
        refine Relies.bind (works_await trivial) fun mr ↦ ?_
        split_ifs
        · exact Relies.ret _
        · exact Relies.bind (works_await trivial) fun _ ↦ Relies.ret _

theorem works_tryCreatePipeline (sourceBranch newSha : String)
    (fallbackPipelineId : Option ℕ) :
    (tryCreatePipeline sourceBranch newSha fallbackPipelineId).Works mrIid rowId q := by
  refine works_catching (Relies.bind (works_await trivial) fun _ ↦ Relies.ret _) fun e ↦ ?_
  split_ifs
  · exact Relies.ret _
  · cases fallbackPipelineId with
    | none => exact Relies.throw _
    | some id =>
        exact works_catching (Relies.bind (works_await trivial) fun _ ↦ Relies.ret _)
          fun _ ↦ Relies.ret _

theorem works_resolveCurrentPipeline (mr : MergeRequest) (pipeline : Option Pipeline) :
    (resolveCurrentPipeline mr pipeline).Works mrIid rowId q := by
  unfold resolveCurrentPipeline
  simp only
  split
  · exact Relies.ret _
  · exact Relies.bind (works_tryCreatePipeline _ _ _) fun _ ↦ Relies.ret _

theorem works_enterTesting (pipeline : Pipeline) (sha : String) :
    (enterTesting settings pipeline sha).Works mrIid rowId q :=
  Relies.bind (works_of_tends (MRNotifier.tends_buildPipelineUrl _)) fun _ ↦
    MRStateMachine.works_triggerRebaseComplete _ _ _

theorem works_startTestingWithoutRebase (iid : ℕ) (mr : MergeRequest)
    (pipeline : Option Pipeline) :
    (startTestingWithoutRebase settings iid mr pipeline).Works mrIid rowId q := by
  refine Relies.bind (works_resolveCurrentPipeline _ _) fun found ↦ ?_
  cases found with
  | some found => exact Relies.bind (works_enterTesting _ _) fun _ ↦ Relies.ret _
  | none =>
      refine Relies.bind (works_pollUntilDone ?_) fun outcome ↦ ?_
      · refine Relies.bind (works_await trivial) fun mr ↦ ?_
        exact Relies.bind (works_await trivial) fun pipeline ↦ works_resolveCurrentPipeline _ _
      · cases outcome with
        | completed found => exact Relies.bind (works_enterTesting _ _) fun _ ↦ Relies.ret _
        | shutdownRequested => exact Relies.ret _
        | timedOut => exact Relies.throw _

theorem works_afterRebase (iid : ℕ) (old : RebaseContext) :
    (afterRebase settings iid old).Works mrIid rowId q := by
  refine Relies.bind (works_waitForPostRebasePipeline _ _) fun out ↦ ?_
  obtain ⟨pipeline, newSha⟩ := out
  cases pipeline with
  | some pipeline => exact Relies.bind (works_enterTesting _ _) fun _ ↦ Relies.ret _
  | none =>
      simp only
      split_ifs
      · refine Relies.bind (works_await trivial) fun stopping ↦ ?_
        split_ifs
        · exact Relies.ret _
        · refine Relies.bind (works_await trivial) fun mr ↦ ?_
          refine Relies.bind (works_await trivial) fun current ↦ ?_
          exact Relies.bind (works_startTestingWithoutRebase _ _ _) fun _ ↦ Relies.ret _
      · exact Relies.ret _

theorem works_waitForRebase (iid : ℕ) (old : RebaseContext) :
    (waitForRebase settings iid old).Works mrIid rowId q := by
  refine Relies.bind (works_pollUntilDone ?_) fun outcome ↦ ?_
  · refine Relies.bind (works_await trivial) fun status ↦ ?_
    obtain ⟨inProgress, hasConflicts, mergeError⟩ := status
    simp only
    split_ifs
    · refine Relies.bind (works_await trivial) fun files ↦ ?_
      exact Relies.bind (MRStateMachine.works_triggerRebaseFailed _ _) fun _ ↦ Relies.ret _
    · exact Relies.ret _
    · exact works_afterRebase _ _
  · cases outcome with
    | completed result => exact Relies.ret _
    | shutdownRequested => exact Relies.ret _
    | timedOut => exact Relies.bind (MRStateMachine.works_triggerTimeout _) fun _ ↦ Relies.ret _

theorem works_processRebase (iid : ℕ) :
    (processRebase settings iid).Works mrIid rowId q := by
  have hcapture : (capturePreRebaseState iid).Works mrIid rowId q :=
    Relies.bind (works_await trivial) fun _ ↦ Relies.bind (works_await trivial) fun _ ↦ Relies.ret _
  have hinitiate : (initiateRebase settings iid).Works mrIid rowId q := by
    refine works_catching (Relies.bind (works_await trivial) fun _ ↦ Relies.ret _) fun e ↦ ?_
    refine Relies.bind (works_await trivial) fun files ↦ ?_
    exact Relies.bind (MRStateMachine.works_triggerRebaseFailed _ _) fun _ ↦ Relies.ret _
  refine Relies.bind hcapture fun before ↦ ?_
  obtain ⟨mr, pipeline⟩ := before
  simp only
  split_ifs
  · exact works_startTestingWithoutRebase _ _ _
  · exact works_waitForRebase _ _
  · refine Relies.bind hinitiate fun out ↦ ?_
    cases out with
    | some result => exact Relies.ret _
    | none => exact works_waitForRebase _ _

end RebaseHandler

/-! ## Waiting for the pipeline -/

namespace RebaseCoordinator

variable {settings : Settings} {mrIid rowId : ℕ} {q : Option ℕ}

theorem works_waitForNewPipeline (iid : ℕ) (oldSha : String) (oldPipelineId : Option ℕ) :
    (RebaseDuringTestingHandler.waitForNewPipeline settings iid oldSha oldPipelineId).Works
      mrIid rowId q := by
  refine Relies.bind (works_pollUntilDone ?_) fun outcome ↦ ?_
  · refine Relies.bind (works_await trivial) fun mr ↦ ?_
    split_ifs
    · exact Relies.bind (works_await trivial) fun _ ↦ Relies.ret _
    · exact Relies.ret _
  · cases outcome with
    | completed pipeline => exact Relies.ret _
    | shutdownRequested => exact Relies.ret _
    | timedOut =>
        refine Relies.bind (works_await trivial) fun mr ↦ ?_
        exact Relies.bind (works_await trivial) fun _ ↦ Relies.ret _

theorem works_rebaseAgain (iid : ℕ) (ctx : RebaseDuringTestingContext) :
    (RebaseDuringTestingHandler.rebaseAgain settings iid ctx).Works mrIid rowId q := by
  have hcancel :
      (RebaseDuringTestingHandler.cancelCurrentPipeline ctx).Works mrIid rowId q := by
    unfold RebaseDuringTestingHandler.cancelCurrentPipeline
    cases ctx.currentPipelineId with
    | none => exact Relies.ret ()
    | some id =>
        exact works_catching (Relies.bind (works_await trivial) fun _ ↦ Relies.ret ())
          fun _ ↦ Relies.ret ()
  refine Relies.bind hcancel fun _ ↦ Relies.bind (works_await trivial) fun mr ↦ ?_
  refine Relies.bind (works_await trivial) fun _ ↦ ?_
  refine Relies.bind (works_waitForRebaseCompletion _ _ _ _ _ _) fun _ ↦ ?_
  exact Relies.bind (works_waitForNewPipeline _ _ _) fun _ ↦ Relies.ret _

theorem works_attemptRebase (iid : ℕ) (state : PipelineWaitState) (pipeline : Pipeline) :
    (attemptRebase settings iid state pipeline).Works mrIid rowId q := by
  have hhandle : (RebaseDuringTestingHandler.handleRebaseIfNeeded settings iid
      state.rebaseCtx).Works mrIid rowId q := by
    have hcheck : (RebaseDuringTestingHandler.checkNeedsRebase iid).Works mrIid rowId q := by
      refine Relies.bind (works_await trivial) fun mr ↦ ?_
      split_ifs
      · exact Relies.ret _
      · exact Relies.ret _
      · exact Relies.ret _
    refine Relies.bind hcheck fun readiness ↦ ?_
    cases readiness with
    | ready => exact Relies.ret _
    | hasConflicts => exact Relies.throw _
    | needsRebase =>
        simp only
        split_ifs
        · exact Relies.throw _
        · exact works_rebaseAgain _ _
  refine Relies.bind hhandle fun out ↦ ?_
  obtain ⟨newCtx, newPipeline⟩ := out
  cases newPipeline with
  | some newPipeline =>
      exact Relies.bind (MRStateMachine.works_notifyRebaseDuringTesting _ _ _ _ _) fun _ ↦
        Relies.ret _
  | none =>
      simp only
      split_ifs
      · exact Relies.ret _
      · exact Relies.ret _

theorem works_failRebase (iid : ℕ) (state : PipelineWaitState) (e : PyError) :
    (failRebase settings iid state e).Works mrIid rowId q := by
  have hfailed (jobs : List String) (message : String) : Prog.Works mrIid rowId q (do
      MRStateMachine.triggerPipelineFailed settings jobs state.retriedJobs message
      return RebaseResult.result .pipelineFailed) :=
    Relies.bind (MRStateMachine.works_triggerPipelineFailed _ _ _) fun _ ↦ Relies.ret _
  unfold failRebase
  split
  · exact hfailed _ _
  · split_ifs
    · refine Relies.bind (works_await trivial) fun files ↦ ?_
      exact Relies.bind (MRStateMachine.works_triggerConflictDuringTesting _ _) fun _ ↦
        Relies.ret _
    · exact hfailed _ _
    · exact Relies.throw _

theorem works_maybeRebaseDuringTesting (iid : ℕ) (state : PipelineWaitState)
    (pipeline : Pipeline) :
    (maybeRebaseDuringTesting settings iid state pipeline).Works mrIid rowId q := by
  refine Relies.bind (works_await trivial) fun now ↦ ?_
  split_ifs
  · exact Relies.ret _
  · have hcheck : (checkAndHandleRebaseDuringTesting settings iid state pipeline).Works
        mrIid rowId q :=
      Relies.handle (works_attemptRebase _ _ _) fun e ↦ works_failRebase _ _ e
    refine Relies.bind hcheck fun out ↦ ?_
    cases out with
    | unchanged => exact Relies.ret _
    | context ctx => exact Relies.ret _
    | result result => exact Relies.ret _

end RebaseCoordinator

namespace PipelineHandler

variable {settings : Settings} {mrIid rowId : ℕ} {q : Option ℕ}

theorem works_writeTesting (iid : ℕ) (extra : QueueManager.Extra) :
    (writeTesting settings iid extra).Works mrIid rowId q := works_updateMrState

/-- A pipeline that fails ends the work with its outcome. -/
theorem works_failed {α : Type} (failedJobs : List String) (retriedJobs : List (String × ℕ))
    (errorMessage : String) (a : α) :
    Prog.Works mrIid rowId q (do
      MRStateMachine.triggerPipelineFailed settings failedJobs retriedJobs errorMessage
      return a) :=
  Relies.bind (MRStateMachine.works_triggerPipelineFailed _ _ _) fun _ ↦ Relies.ret _

theorem works_retryJobs (jobs : List Job) : (retryJobs jobs).Works mrIid rowId q := by
  induction jobs with
  | nil => exact Relies.ret []
  | cons job jobs ih =>
      refine Relies.bind (works_catching ?_ fun _ ↦ Relies.ret _) fun answer ↦
        Relies.bind ih fun answers ↦ Relies.ret _
      exact Relies.bind (works_await trivial) fun _ ↦ Relies.ret _

theorem works_handleRetryApiFailures (iid : ℕ) (pipeline : Pipeline)
    (updated : List (String × ℕ)) (answers : List (Job × Except PyError Job)) (first : PyError) :
    (handleRetryApiFailures settings iid pipeline updated answers first).Works
      mrIid rowId q := by
  have hexternal (errors : List (Job × PyError)) :
      (retriedExternally pipeline.id errors).Works mrIid rowId q := by
    unfold retriedExternally
    split_ifs
    · exact Relies.bind (works_await trivial) fun _ ↦ Relies.ret _
    · exact Relies.ret _
  have hpersist : (persistRetries settings iid updated answers).Works mrIid rowId q := by
    unfold persistRetries
    split_ifs
    · exact Relies.ret ()
    · exact works_writeTesting _ _
  refine Relies.bind (hexternal _) fun external ↦ ?_
  split_ifs
  · exact Relies.bind (works_await trivial) fun _ ↦ Relies.ret _
  · exact Relies.bind hpersist fun _ ↦ works_failed _ _ _ _

theorem works_dispatchJobRetries (iid : ℕ) (pipeline : Pipeline) (jobsToRetry : List Job)
    (retriedJobs : List (String × ℕ)) (maxJobRetries : ℕ) :
    (dispatchJobRetries settings iid pipeline jobsToRetry retriedJobs maxJobRetries).Works
      mrIid rowId q := by
  refine Relies.bind (works_retryJobs _) fun answers ↦ ?_
  simp only
  split
  · exact works_handleRetryApiFailures _ _ _ _ _
  · refine Relies.bind (works_writeTesting _ _) fun _ ↦ ?_
    refine Relies.bind (works_of_tends (MRNotifier.tends_buildPipelineUrl _)) fun url ↦ ?_
    refine Relies.bind (MRStateMachine.works_notifyJobRetry _ _ _ _ _) fun _ ↦ ?_
    exact Relies.bind (works_await trivial) fun _ ↦ Relies.ret _

theorem works_handlePipelineFailureRetry (iid : ℕ) (pipeline : Pipeline)
    (retriedJobs : List (String × ℕ)) :
    (handlePipelineFailureRetry settings iid pipeline retriedJobs).Works mrIid rowId q := by
  have hfetch : (fetchPipelineJobs settings pipeline retriedJobs).Works mrIid rowId q := by
    refine Relies.bind (works_catching (Relies.bind (works_await trivial) fun _ ↦ Relies.ret _)
      fun _ ↦ Relies.ret _) fun fetched ↦ ?_
    cases fetched with
    | error e => exact works_failed _ _ _ _
    | ok jobs =>
        simp only
        split_ifs
        · exact works_failed _ _ _ _
        · exact Relies.ret _
  refine Relies.bind hfetch fun fetched ↦ ?_
  cases fetched with
  | none => exact Relies.ret _
  | some jobs =>
      simp only
      split_ifs
      · unfold handleNoFailedJobs
        split_ifs
        · exact Relies.ret _
        · exact works_failed _ _ _ _
      · exact works_dispatchJobRetries _ _ _ _ _
      · exact works_failed _ _ _ _

theorem works_handlePipelineFailure (iid : ℕ) (pipeline : Pipeline)
    (retriedJobs : List (String × ℕ)) :
    (handlePipelineFailure settings iid pipeline retriedJobs).Works mrIid rowId q := by
  refine Relies.bind works_getQueueItem fun item ↦ ?_
  refine Relies.bind (works_handlePipelineFailureRetry _ _ _) fun signal ↦ ?_
  cases signal with
  | none => exact Relies.ret _
  | some signal => exact Relies.ret _

theorem works_handleCanceled (iid : ℕ) (pipeline : Pipeline) (retriedJobs : List (String × ℕ)) :
    (handleCanceled settings iid pipeline retriedJobs).Works mrIid rowId q := by
  have hswitch : (trySwitchToReplacementPipeline settings iid pipeline).Works mrIid rowId q := by
    refine Relies.bind works_getQueueItem fun item ↦ ?_
    split
    · exact Relies.ret _
    · refine Relies.bind (works_await trivial) fun pipelines ↦ ?_
      split
      · exact Relies.ret _
      · exact Relies.bind (works_writeTesting _ _) fun _ ↦ Relies.ret _
  refine Relies.bind hswitch fun switched ↦ ?_
  split_ifs
  · exact Relies.ret _
  · refine Relies.bind (works_catching ?_ fun _ ↦ Relies.ret _) fun jobs ↦ works_failed _ _ _ _
    exact Relies.bind (works_await trivial) fun _ ↦ Relies.ret _

theorem works_handlePipelineStatus (iid : ℕ) (pipeline : Pipeline)
    (retriedJobs : List (String × ℕ)) :
    (handlePipelineStatus settings iid pipeline retriedJobs).Works mrIid rowId q := by
  unfold handlePipelineStatus
  split
  · refine Relies.bind works_getQueueItem fun item ↦ ?_
    split_ifs
    · exact Relies.ret _
    · exact Relies.bind (MRStateMachine.works_fire _) fun _ ↦ Relies.ret _
  · exact works_handleCanceled _ _ _
  · exact works_handlePipelineFailure _ _ _
  · split
    · exact Relies.ret _
    · exact works_failed _ _ _ _

theorem works_resetPipelineWaitState (state : PipelineWaitState) :
    (resetPipelineWaitState state).Works mrIid rowId q :=
  Relies.bind (works_await trivial) fun _ ↦ Relies.ret _

theorem works_tryRecoverFromStaleSkip (iid : ℕ) (pipeline : Pipeline)
    (state : PipelineWaitState) :
    (tryRecoverFromStaleSkip settings iid pipeline state).Works mrIid rowId q := by
  refine Relies.bind works_getQueueItem fun item ↦ ?_
  split
  · exact Relies.ret _
  · refine Relies.bind (works_await trivial) fun tracked ↦ ?_
    split_ifs
    · exact Relies.bind (works_writeTesting _ _) fun _ ↦ works_resetPipelineWaitState _
    · exact Relies.ret _

theorem works_checkPipelineTerminationConditions (iid : ℕ) (state : PipelineWaitState) :
    (checkPipelineTerminationConditions settings iid state).Works mrIid rowId q := by
  have hchance : (hasLastChance iid state).Works mrIid rowId q := by
    unfold hasLastChance
    split_ifs
    · exact Relies.ret _
    · exact Relies.bind (works_await trivial) fun _ ↦ Relies.ret _
  refine Relies.bind (works_await trivial) fun stopping ↦ ?_
  split_ifs
  · exact Relies.ret _
  · refine Relies.bind (works_await trivial) fun now ↦ ?_
    split_ifs
    · refine Relies.bind hchance fun lastChance ↦ ?_
      split_ifs
      · exact Relies.ret _
      · exact Relies.bind (MRStateMachine.works_triggerTimeout _) fun _ ↦ Relies.ret _
    · refine Relies.bind (works_verifyMrInQueue _) fun verdict ↦ ?_
      cases verdict with
      | none => exact Relies.ret _
      | some reason =>
          exact Relies.bind (MRStateMachine.works_triggerMarkRemoved _) fun _ ↦ Relies.ret _

theorem works_applyRebaseOutcome (iid : ℕ) (state : PipelineWaitState)
    (outcome : RebaseCheckOutcome) :
    (applyRebaseOutcome settings iid state outcome).Works mrIid rowId q := by
  unfold applyRebaseOutcome
  split
  · exact Relies.ret _
  · exact Relies.ret _
  · split_ifs
    · refine Relies.bind (works_writeTesting _ _) fun _ ↦ ?_
      exact Relies.bind (works_await trivial) fun _ ↦ Relies.ret _
    · exact Relies.ret _

theorem works_followPipeline (iid : ℕ) (pipeline : Pipeline) (state : PipelineWaitState) :
    (followPipeline settings iid pipeline state).Works mrIid rowId q := by
  unfold followPipeline
  simp only
  split_ifs
  · exact Relies.ret _
  · refine Relies.bind (works_handlePipelineStatus _ _ _) fun out ↦ ?_
    cases out with
    | wait => exact Relies.ret _
    | result result => exact Relies.ret _
    | retry signal => exact Relies.ret _

theorem works_processPipeline (iid : ℕ) (pipeline : Pipeline) (state : PipelineWaitState) :
    (processPipeline settings iid pipeline state).Works mrIid rowId q := by
  refine Relies.bind (RebaseCoordinator.works_maybeRebaseDuringTesting _ _ _) fun outcome ↦ ?_
  refine Relies.bind (works_applyRebaseOutcome _ _ _) fun out ↦ ?_
  obtain ⟨state, ended⟩ := out
  cases ended with
  | some result => exact Relies.ret _
  | none =>
      have hstale : (checkStalePipeline settings iid pipeline).Works mrIid rowId q :=
        Relies.bind works_getQueueItem fun _ ↦ Relies.ret _
      refine Relies.bind hstale fun stale ↦ ?_
      cases stale with
      | skip => exact Relies.bind (works_tryRecoverFromStaleSkip _ _ _) fun _ ↦ Relies.ret _
      | switched =>
          refine Relies.bind (works_writeTesting _ _) fun _ ↦ ?_
          exact Relies.bind (works_resetPipelineWaitState _) fun _ ↦ Relies.ret _
      | ok => exact works_followPipeline _ _ _

theorem works_waitForPipeline (iid : ℕ) :
    (waitForPipeline settings iid).Works mrIid rowId q := by
  have hinit : (initPipelineWaitState settings iid).Works mrIid rowId q :=
    Relies.bind works_getQueueItem fun _ ↦ Relies.bind (works_await trivial) fun _ ↦
      Relies.bind (works_await trivial) fun _ ↦ Relies.ret _
  have hpoll (state : PipelineWaitState) :
      (processPipelineIteration settings iid state).Works mrIid rowId q := by
    refine Relies.bind (works_checkPipelineTerminationConditions _ _) fun out ↦ ?_
    obtain ⟨state, ended⟩ := out
    cases ended with
    | some result => exact Relies.ret _
    | none =>
        refine Relies.bind (works_await trivial) fun pipeline ↦ ?_
        cases pipeline with
        | none => exact Relies.ret _
        | some pipeline => exact works_processPipeline _ _ _
  refine Relies.bind hinit fun state ↦ Relies.loop (fun state ↦ ?_) _ _
  refine Relies.bind (hpoll state) fun out ↦ ?_
  obtain ⟨state, ended⟩ := out
  cases ended with
  | some result => exact Relies.ret _
  | none => exact Relies.bind (works_await trivial) fun _ ↦ Relies.ret _

end PipelineHandler

/-! ## The work of the processor -/

/-- The program works on the row `rowId`, with a state machine made for some row or for none. -/
abbrev Prog.WorksOn {α : Type} (mrIid rowId : ℕ) (p : Prog α) : Prop :=
  p.Relies (Op.Finds rowId) (fun s op ↦ ∃ q, s.Drives mrIid q ∧ op.Works mrIid rowId q)
    fun s ↦ ∃ q, s.Drives mrIid q

section Processor

variable {settings : Settings} {mrIid rowId : ℕ} {q : Option ℕ} {α : Type}

theorem worksOn_of_works {p : Prog α} (h : ∀ q, p.Works mrIid rowId q) : p.WorksOn mrIid rowId :=
  Relies.of_forall h

theorem worksOn_catching {handles : PyError → Bool} {p : Prog α} {handler : PyError → Prog α}
    (hp : p.WorksOn mrIid rowId) (hhandler : ∀ e, (handler e).WorksOn mrIid rowId) :
    (catching handles p handler).WorksOn mrIid rowId := by
  refine Relies.handle hp fun e ↦ ?_
  split_ifs
  · exact hhandler e
  · exact Relies.throw e

/-- The state machine is made for the row that stands under the merge request. -/
theorem MRStateMachine.worksOn_create (targetBranch : String) :
    (create settings mrIid targetBranch).WorksOn mrIid rowId := by
  have hview (state : Status) : (Prog.takeView state).WorksOn mrIid rowId :=
    worksOn_of_works fun _ ↦ Relies.update fun _ hs ↦ ⟨hs.machine, hs.without⟩
  have hkeep {m : Machine} (hiid : m.mrIid = mrIid) : (keep m).WorksOn mrIid rowId := by
    refine Relies.update fun _ _ ↦ ⟨m.queueId, fun m' hm' ↦ ?_, fun hnone ↦ by cases hnone⟩
    cases hm'
    exact ⟨hiid, rfl⟩
  refine Relies.bind (worksOn_of_works fun _ ↦ works_getQueueItem) fun item ↦ ?_
  cases item with
  | some item =>
      refine Relies.bind ?_ fun _ ↦ hview _
      rw [onEnter, if_pos rfl]
      exact hkeep rfl
  | none =>
      refine Relies.bind ?_ fun _ ↦ Relies.bind (hkeep rfl) fun _ ↦ hview _
      rw [onEnter, if_neg (by simp)]
      exact worksOn_of_works fun _ ↦ works_onEnterQueued rfl

namespace MergeProcessor

theorem works_failDirectly (iid : ℕ) (errorMessage : String) :
    (failDirectly settings iid errorMessage).Works mrIid rowId q := by
  refine Relies.bind (works_await rfl) fun _ ↦ Relies.bind (works_announce _ _) fun _ ↦ ?_
  exact Relies.bind (works_of_tends (MRNotifier.tends_removeQueueLabel _ _ _)) fun _ ↦
    Relies.ret ()

theorem works_stateMachine : stateMachine.Works mrIid rowId q := fun _ hs ↦ hs

theorem works_failForGood (iid : ℕ) (errorMessage : String) :
    (failForGood settings iid errorMessage).Works mrIid rowId q := by
  refine Relies.bind works_stateMachine fun found ↦ ?_
  cases found with
  | none => exact works_failDirectly _ _
  | some _ =>
      refine works_machine fun m _ _ ↦ ?_
      split
      · exact MRStateMachine.works_triggerRebaseFailed _ _
      · exact MRStateMachine.works_triggerPipelineFailed _ _ _
      · exact MRStateMachine.works_triggerMergeFailed _
      · exact works_failDirectly _ _
      · exact works_failDirectly _ _
      · exact works_failDirectly _ _
      · exact works_failDirectly _ _

theorem works_handleProcessingError (iid : ℕ) (error : PyError) :
    (handleProcessingError settings iid error).Works mrIid rowId q := by
  have hreset : (resetMachine settings).Works mrIid rowId q := by
    refine Relies.bind works_stateMachine fun found ↦ ?_
    cases found with
    | none => exact Relies.ret ()
    | some _ => exact MRStateMachine.works_triggerResetToQueued
  refine Relies.bind works_getQueueItem fun found ↦ ?_
  cases found with
  | none => exact Relies.ret ()
  | some item =>
      simp only
      split_ifs
      · exact Relies.ret ()
      · exact works_failForGood _ _
      · exact Relies.bind hreset fun _ ↦ works_updateMrState

theorem works_processMerge (iid : ℕ) : (processMerge settings iid).Works mrIid rowId q := by
  refine Relies.bind works_getQueueItem fun item ↦ Relies.handle ?_ fun e ↦ ?_
  · exact Relies.bind (works_await trivial) fun _ ↦
      Relies.bind (MRStateMachine.works_fire _) fun _ ↦ Relies.ret _
  · unfold failMerge
    split_ifs
    · exact Relies.bind (MRStateMachine.works_triggerMergeFailed _) fun _ ↦ Relies.ret _
    · exact Relies.bind (MRStateMachine.works_triggerMergeFailed _) fun _ ↦ Relies.ret _
    · exact Relies.throw _

theorem works_executeWorkflow (iid : ℕ) : (executeWorkflow settings iid).Works mrIid rowId q := by
  have htest : (testThenMerge settings iid).Works mrIid rowId q := by
    refine Relies.bind works_updateMrState fun _ ↦ ?_
    refine Relies.bind (PipelineHandler.works_waitForPipeline _) fun result ↦ ?_
    split_ifs
    · exact works_processMerge _
    · exact Relies.ret _
  have hrebase : (rebaseThenTest settings iid).Works mrIid rowId q := by
    refine Relies.bind (RebaseHandler.works_processRebase _) fun result ↦ ?_
    split_ifs
    · exact htest
    · exact Relies.ret _
  refine works_machine fun m _ _ ↦ ?_
  split
  · exact Relies.bind MRStateMachine.works_triggerStartProcessing fun _ ↦ hrebase
  · exact hrebase
  · exact htest
  · exact works_processMerge _
  · exact Relies.ret _
  · exact Relies.ret _
  · exact Relies.ret _

/-- The whole work on one merge request, whatever is raised in it. -/
theorem worksOn_processMr : (processMr settings mrIid).WorksOn mrIid rowId := by
  have hattempt : (attempt settings mrIid).WorksOn mrIid rowId := by
    refine Relies.bind (MRStateMachine.worksOn_create _) fun _ ↦ ?_
    refine Relies.bind (worksOn_of_works fun _ ↦ works_verifyMrInQueue _) fun verdict ↦ ?_
    cases verdict with
    | none => exact worksOn_of_works fun _ ↦ works_executeWorkflow _
    | some reason =>
        exact Relies.bind (worksOn_of_works fun _ ↦ MRStateMachine.works_triggerMarkRemoved _)
          fun _ ↦ Relies.ret _
  refine Relies.bind (Relies.update fun _ _ ↦ ⟨none, Local.drives_of_none rfl⟩) fun _ ↦ ?_
  refine worksOn_catching hattempt fun e ↦ Relies.bind ?_ fun _ ↦ Relies.ret _
  exact worksOn_catching (worksOn_of_works fun _ ↦ works_handleProcessingError _ _)
    fun _ ↦ Relies.ret ()

theorem worksOn_warnStale (item : QueueItem) :
    (warnStale settings item).WorksOn item.mrIid rowId := by
  unfold warnStale
  split_ifs
  · exact Relies.ret ()
  · refine worksOn_catching ?_ fun _ ↦ Relies.ret ()
    refine Relies.bind (MRStateMachine.worksOn_create _) fun _ ↦ ?_
    refine Relies.bind (worksOn_of_works fun _ ↦ MRStateMachine.works_notifyStaleWarning _)
      fun _ ↦ ?_
    exact Relies.bind (worksOn_of_works fun _ ↦ works_await trivial) fun _ ↦ Relies.ret ()

end MergeProcessor

end Processor

/-! ## What the calls do to other rows -/

namespace QueueOp

/-- The merge request under which the call looks for the row that it writes, where it does not
name the id of the row. -/
def looksUnder : QueueOp → Option (ℕ × ℕ)
  | updateMrState projectId iid _ _ | markStaleWarningSent projectId iid
  | completeMr projectId iid _ none => some (projectId, iid)
  | prepareCompletion projectId iid request =>
      if request.queueId = none then some (projectId, iid) else none
  | _ => none

/-- Other rows than `rowId` get at most feedback. -/
def KeepsOthers (rowId : ℕ) (db db' : Database) : Prop :=
  ∀ r ∈ db.mergeRequests.rows, r.id ≠ rowId → ∃ r' ∈ db'.mergeRequests.rows, Feedback r r'

section Effects

variable {qm : QueueManager} {now : ℤ} {tokens : ℕ → Uuid} {db db' : Database}
  {mrIid rowId projectId : ℕ} {q : Option ℕ}

/-- A row under the key of another row. -/
theorem id_eq_of_key {r : MergeRequestRow} {iid : ℕ}
    (hfound : ∀ r ∈ db.mergeRequests.rows, r.projectId = projectId → r.iid = iid → r.id = rowId)
    (hr : r ∈ db.mergeRequests.rows) (hid : r.id ≠ rowId) :
    ¬(r.projectId = projectId ∧ r.iid = iid) :=
  fun hkey ↦ hid (hfound r hr hkey.1 hkey.2)

/-- Finishing the row names its id, and what it inserts stands under the same merge request. -/
theorem keepsOthers_finalizeCompletion {item : QueueItem} {payload : CompletionPayload}
    {done : Bool} (hiid : item.mrIid = mrIid) (hitem : item.queueId = rowId)
    (hrow : ∀ r ∈ db.mergeRequests.rows, r.id = rowId → r.iid = mrIid)
    (h : qm.finalizeCompletion projectId item payload now tokens db = .ok (done, db')) :
    KeepsOthers rowId db db' := by
  intro r hr hid
  rcases finalizeCompletion_eq_ok h with ⟨-, rfl⟩ | ⟨-, ⟨own, hown, hproject, hownId, -⟩, -⟩
  · exact ⟨r, hr, Feedback.refl r⟩
  · refine finalizeCompletion_feedback h hr (by rwa [hitem]) fun hkey ↦ hid ?_
    have hsame : r = own := by
      refine db.mergeRequests.eq_of_key_eq hr hown ?_
      rw [key_mergeRequestRow, key_mergeRequestRow, hkey.1, hkey.2, hproject, hiid,
        hrow own hown (hownId.trans hitem)]
    rw [hsame, hownId, hitem]

/-- A call of the work that finds no other row under its merge request changes no other row. -/
theorem keepsOthers_of_works {op : QueueOp} {a : op.Answer} (hworks : op.Works mrIid rowId q)
    (hq : q.getD rowId = rowId)
    (hlooks : ∀ key ∈ op.looksUnder, ∀ r ∈ db.mergeRequests.rows, r.projectId = key.1 →
      r.iid = key.2 → r.id = rowId)
    (hrow : ∀ r ∈ db.mergeRequests.rows, r.id = rowId → r.iid = mrIid)
    (h : op.exec qm now tokens db = .ok (a, db')) : KeepsOthers rowId db db' := by
  intro r hr hid
  have hchanged (hkeep : ¬op.Deletes r) (hchange : ∀ r', RowChange now op r r' → Feedback r r') :
      ∃ r' ∈ db'.mergeRequests.rows, Feedback r r' := by
    obtain ⟨r', hr', -, -, -, h'⟩ := exec_row h hr hkeep
    exact ⟨r', hr', hchange r' h'⟩
  cases op with
  | updateMrState projectId iid =>
      have hkey : ¬(r.projectId = projectId ∧ r.iid = iid) :=
        id_eq_of_key (hlooks _ rfl) hr hid
      refine hchanged not_false fun r' hchange ↦ ?_
      rcases hchange with rfl | ⟨hproject, hiid, -⟩
      · exact Feedback.refl r'
      · exact absurd ⟨hproject, hiid⟩ hkey
  | markStaleWarningSent projectId iid =>
      have hkey : ¬(r.projectId = projectId ∧ r.iid = iid) :=
        id_eq_of_key (hlooks _ rfl) hr hid
      refine hchanged not_false fun r' hchange ↦ ?_
      rcases hchange with rfl | ⟨hproject, hiid, -⟩
      · exact Feedback.refl r'
      · exact absurd ⟨hproject, hiid⟩ hkey
  | completeMr projectId iid outcome expectedQueueId =>
      have hnone : expectedQueueId = none := hworks
      subst hnone
      have hkey : ¬(r.projectId = projectId ∧ r.iid = iid) :=
        id_eq_of_key (hlooks _ rfl) hr hid
      refine hchanged (fun hdeletes ↦ hkey ⟨hdeletes.1, hdeletes.2.1⟩) fun r' hkept ↦ ?_
      cases hkept
      exact Feedback.refl r
  | prepareCompletion projectId iid request =>
      refine hchanged not_false fun r' hchange ↦ ?_
      rcases hchange with rfl | ⟨hproject, hiid, hnamed, -⟩
      · exact Feedback.refl r'
      · cases hrequest : request.queueId with
        | none =>
            have hkey : ¬(r.projectId = projectId ∧ r.iid = iid) :=
              id_eq_of_key (hlooks (projectId, iid) (by simp [looksUnder, hrequest])) hr hid
            exact absurd ⟨hproject, hiid⟩ hkey
        | some id =>
            have hsome : q = some id := hworks.2.symm.trans hrequest
            rw [hsome, Option.getD_some] at hq
            exact absurd ((hnamed id hrequest).trans hq) hid
  | saveCompletionProgress projectId queueId payload =>
      have hown : queueId = rowId := Eq.trans hworks hq
      refine hchanged not_false fun r' hchange ↦ ?_
      rcases hchange with rfl | ⟨-, hsame, -⟩
      · exact Feedback.refl r'
      · exact absurd (hsame.trans hown) hid
  | finalizeCompletion projectId item payload =>
      exact keepsOthers_finalizeCompletion hworks.1 (hworks.2.trans hq) hrow h r hr hid
  | getQueueItem | getActiveQueue | getPendingCompletions | getStaleMrs | getMrState =>
      refine hchanged not_false fun r' hkept ↦ ?_
      cases hkept
      exact Feedback.refl r
  | clearPendingNotification | stageCompletionPositions =>
      exact hchanged not_false fun r' hfeedback ↦ hfeedback
  | addToQueue | removeFromQueue | updateHotfixStatus | activatePriorities | deferRequeue
  | cancelRequeue | refreshRequeueLabels | cleanupOldEntries => cases hworks

end Effects

end QueueOp

/-! ## What the calls answer -/

namespace QueueOp

variable {qm : QueueManager} {now : ℤ} {tokens : ℕ → Uuid} {db db' : Database} {rowId : ℕ}

theorem mrIid_of_selectQueueItem {projectId iid : ℕ} {item : QueueItem}
    (h : db.selectQueueItem projectId iid = some item) : item.mrIid = iid := by
  obtain ⟨row, hrow, rfl⟩ := Option.map_eq_some_iff.mp h
  have hkey := KeyedTable.key_of_byKey hrow
  simp only [key_mergeRequestRow, Prod.mk.injEq] at hkey
  rw [rowToQueueItem_mrIid, hkey.2]

/-- A prepared completion names the row that was asked for, or the one that was found. -/
theorem finds_prepareCompletion {projectId iid : ℕ} {request : CompletionRequest}
    {item : QueueItem}
    (hlooks : ∀ key ∈ (prepareCompletion projectId iid request).looksUnder,
      ∀ r ∈ db.mergeRequests.rows, r.projectId = key.1 → r.iid = key.2 → r.id = rowId)
    (h : QueueManager.prepareCompletion projectId iid request now db = .ok (some item, db')) :
    item.mrIid = iid ∧ item.queueId = request.queueId.getD rowId := by
  have hnames {row : MergeRequestRow} (hrow : row ∈ db.row projectId iid)
      (hguard : ∀ id ∈ request.queueId, row.id = id) :
      row.iid = iid ∧ row.id = request.queueId.getD rowId := by
    obtain ⟨hmem, hkey⟩ := KeyedTable.byKey_eq_some_iff.mp (Option.mem_def.mp hrow)
    simp only [key_mergeRequestRow, Prod.mk.injEq] at hkey
    refine ⟨hkey.2, ?_⟩
    cases hrequest : request.queueId with
    | none => exact hlooks (projectId, iid) (by simp [looksUnder, hrequest]) row hmem hkey.1 hkey.2
    | some id => exact hguard id hrequest
  rcases prepareCompletion_eq_ok h with
    ⟨-, hnone, -⟩ | ⟨-, row, hrow, hguard, -, hanswer⟩ |
      ⟨row, hrow, hguard, -, -, -, -, hanswer⟩
  · cases hnone
  · obtain rfl := Option.some.inj hanswer
    exact hnames hrow hguard
  · obtain rfl := Option.some.inj hanswer
    exact hnames hrow hguard

end QueueOp

def Op.looksUnder : Op → Option (ℕ × ℕ)
  | db call => call.looksUnder
  | _ => none

/-- Where no other row is found, the answers are those that the work relies on. -/
theorem Op.finds_of_exec {qm : QueueManager} {thread : ℕ} {choice : Choice} {w w' : World}
    {rowId : ℕ} {op : Op} {answer : Except PyError op.Answer}
    (hlooks : ∀ key ∈ op.looksUnder, ∀ r ∈ w.db.mergeRequests.rows,
      r.projectId = key.1 → r.iid = key.2 → r.id = rowId)
    (h : World.exec qm thread choice op w = some (answer, w')) : op.Finds rowId answer := by
  unfold Op.Finds
  split
  · next projectId iid request item =>
      rcases (World.exec_db h).2.2 with ⟨-, e, he⟩ | ⟨a, hexec, hanswer⟩
      · cases he
      · rcases hanswer with hok | ⟨e, he⟩
        · cases hok
          exact QueueOp.finds_prepareCompletion hlooks hexec
        · cases he
  · next projectId iid item =>
      rcases (World.exec_db h).2.2 with ⟨-, e, he⟩ | ⟨a, hexec, hanswer⟩
      · cases he
      · rcases hanswer with hok | ⟨e, he⟩
        · cases hok
          exact QueueOp.mrIid_of_selectQueueItem
            (Prod.mk.inj (Except.ok.inj hexec)).1
        · cases he
  · trivial

/-! ## Runs -/

/-- The work on a row that was read under a merge request, the warning about a stale row, or
a transaction of any other task. -/
inductive RowTask
  | workflow (mrIid rowId : ℕ)
  | staleWarning (item : QueueItem)
  | transaction (op : QueueOp)
  deriving DecidableEq

namespace RowTask

def body (settings : Settings) : RowTask → Prog Unit
  | workflow mrIid _ => do
      let _ ← MergeProcessor.processMr settings mrIid
  | staleWarning item => MergeProcessor.warnStale settings item
  | transaction op => do
      let _ ← Prog.db op

/-- The merge request and the row that the task works on. -/
def target : RowTask → Option (ℕ × ℕ)
  | workflow mrIid rowId => some (mrIid, rowId)
  | staleWarning item => some (item.mrIid, item.queueId)
  | transaction _ => none

end RowTask

def rowSystem (settings : Settings) : System Op Op.Answer Local PyError where
  World := World
  Choice := Choice
  Entry := RowTask
  exec := World.exec settings.qm
  body := RowTask.body settings
  init := fun _ ↦ {}
  arrive := fun _ w ↦ w
  crash := fun w ↦ { w with locks := [] }

section Runs

variable {settings : Settings}

/-- At this step the work on the row `rowId` has no state machine of another row, a call that
looks under the merge request finds no other row, and the row belongs to the merge request. -/
structure OnOwnRow (mrIid rowId : ℕ) (e : Event (rowSystem settings)) : Prop where
  machine : ∀ m ∈ e.state.machine, ∀ id ∈ m.queueId, id = rowId
  looks : ∀ key ∈ Op.looksUnder e.op, ∀ r ∈ e.before.db.mergeRequests.rows,
    r.projectId = key.1 → r.iid = key.2 → r.id = rowId
  row : ∀ r ∈ e.before.db.mergeRequests.rows, r.id = rowId → r.iid = mrIid

instance (mrIid rowId : ℕ) (e : Event (rowSystem settings)) :
    Decidable (OnOwnRow mrIid rowId e) :=
  decidable_of_iff
    ((∀ m ∈ e.state.machine, ∀ id ∈ m.queueId, id = rowId) ∧
      (∀ key ∈ Op.looksUnder e.op, ∀ r ∈ e.before.db.mergeRequests.rows,
        r.projectId = key.1 → r.iid = key.2 → r.id = rowId) ∧
      ∀ r ∈ e.before.db.mergeRequests.rows, r.id = rowId → r.iid = mrIid)
    ⟨fun ⟨machine, looks, row⟩ ↦ ⟨machine, looks, row⟩,
      fun h ↦ ⟨h.machine, h.looks, h.row⟩⟩

/-- What a task relies on and asks for. -/
def RowTask.Finds (task : RowTask) (op : Op) (answer : Except PyError op.Answer) : Prop :=
  ∀ target ∈ task.target, op.Finds target.2 answer

def RowTask.Works (task : RowTask) (s : Local) (op : Op) : Prop :=
  ∀ target ∈ task.target, ∃ q, s.Drives target.1 q ∧ op.Works target.1 target.2 q

theorem asks_of_worksOn {task : RowTask} {mrIid rowId : ℕ} {p : Prog Unit}
    (htarget : task.target = some (mrIid, rowId)) (h : p.WorksOn mrIid rowId) :
    p.Asks task.Finds task.Works (fun s ↦ s = {}) (fun _ _ ↦ True) fun _ _ ↦ True := by
  rintro s rfl
  have hstart : ∃ q, Local.Drives mrIid q {} := ⟨none, Local.drives_of_none rfl⟩
  refine ((h {} hstart).of_contract fun op a hfinds ↦ hfinds _ htarget).mono ?_
    (fun _ _ _ ↦ trivial) fun _ _ _ ↦ trivial
  intro s op hworks target hmem
  obtain rfl : (mrIid, rowId) = target := Option.some.inj (htarget.symm.trans hmem)
  exact hworks

theorem asks_body (task : RowTask) :
    (task.body settings).Asks task.Finds task.Works (fun s ↦ s = {}) (fun _ _ ↦ True)
      fun _ _ ↦ True := by
  cases task with
  | workflow mrIid rowId =>
      exact asks_of_worksOn rfl
        (Relies.bind MergeProcessor.worksOn_processMr fun _ ↦ Relies.ret ())
  | staleWarning item => exact asks_of_worksOn rfl (MergeProcessor.worksOn_warnStale item)
  | transaction op =>
      have hcall : (Prog.db op).Asks (RowTask.transaction op).Finds (RowTask.transaction op).Works
          (fun s ↦ s = {}) (fun _ _ ↦ True) fun _ _ ↦ True :=
        Asks.call (fun _ _ _ h ↦ by cases h) (fun _ _ _ _ ↦ trivial) fun _ _ _ ↦ trivial
      exact Asks.bind hcall fun _ ↦ Asks.ret fun _ _ ↦ trivial

/-- The state machine of the work is made for its own row, or for none. -/
theorem OnOwnRow.getD_eq {mrIid rowId : ℕ} {e : Event (rowSystem settings)} {q : Option ℕ}
    (hown : OnOwnRow mrIid rowId e) (hq : e.state.Drives mrIid q) : q.getD rowId = rowId := by
  cases hmachine : e.state.machine with
  | none => rw [hq.without hmachine, Option.getD_none]
  | some m =>
      rw [← (hq.machine m hmachine).2]
      cases hid : m.queueId with
      | none => rfl
      | some id => exact hown.machine m hmachine id hid

/-- What a step of the work on a row does to the other rows. -/
theorem keepsOthers_of_event {mrIid rowId : ℕ} {e : Event (rowSystem settings)} {choice : Choice}
    (hexec : World.exec settings.qm e.thread choice e.op e.before = some (e.answer, e.after))
    (hworks : ∃ q, e.state.Drives mrIid q ∧ e.op.Works mrIid rowId q)
    (hown : OnOwnRow mrIid rowId e) : QueueOp.KeepsOthers rowId e.before.db e.after.db := by
  rcases World.exec_db_cases hexec with hsame | ⟨call, a, hop, hcall⟩
  · rw [hsame]
    exact fun r hr _ ↦ ⟨r, hr, QueueOp.Feedback.refl r⟩
  · obtain ⟨q, hdrives, hworks⟩ := hworks
    rw [hop] at hworks
    have hlooks := hown.looks
    rw [hop] at hlooks
    exact QueueOp.keepsOthers_of_works hworks (hown.getD_eq hdrives) hlooks hown.row hcall

/-- The work on a row whose steps find no other row under the merge request changes no other
row but its feedback, and takes none away. -/
theorem work_keeps_others (settings : Settings) (w : World)
    (moves : List (Move (rowSystem settings)))
    (hsteps : ∀ e ∈ Config.events (S := rowSystem settings) { world := w } moves,
      ∀ target ∈ RowTask.target e.entry, OnOwnRow target.1 target.2 e) :
    ∀ e ∈ Config.events (S := rowSystem settings) { world := w } moves,
      ∀ target ∈ RowTask.target e.entry,
        QueueOp.KeepsOthers target.2 e.before.db e.after.db := by
  intro e he target htarget
  have hfinds : ∀ e ∈ Config.events (S := rowSystem settings) { world := w } moves,
      RowTask.Finds e.entry e.op e.answer := by
    intro e he target htarget
    obtain ⟨choice, hexec⟩ := Config.exec_of_mem_events he
    exact Op.finds_of_exec (hsteps e he target htarget).looks hexec
  have hasking : Config.Asking (S := rowSystem settings) (fun task ↦ RowTask.Works task)
      (fun task ↦ RowTask.Finds task) { world := w } := ⟨by simp⟩
  have hworks := Config.Asking.permits_of_mem_events (fun task ↦ asks_body task {} rfl) hasking
    hfinds e he target htarget
  obtain ⟨choice, hexec⟩ := Config.exec_of_mem_events he
  exact keepsOthers_of_event hexec hworks (hsteps e he target htarget)

end Runs

/-! ### A row that is added again meanwhile -/

def againSettings : Settings where
  gitlabProjectId := 1
  rounds := 1

def againSteps (thread count : ℕ) (labels : List String) : List (Move (rowSystem againSettings)) :=
  List.replicate count (.step thread { gitlab := answersFor { waitingMr 7 with labels } })

/-- The row of the merge request ends and it is added again. -/
def againRemoved : List (Move (rowSystem againSettings)) :=
  .start (.transaction (.completeMr 1 7 { historyStatus := .removed } (some 1))) ::
    againSteps 1 1 [] ++
  .start (.transaction (.addToQueue 1 (waitingMr 7) false)) :: againSteps 2 1 []

/-- The work on the first row goes on after that, with these labels on the merge request. -/
def againMoves (count : ℕ) (labels : List String) : List (Move (rowSystem againSettings)) :=
  .start (.workflow 7 1) :: againSteps 0 2 labels ++ againRemoved ++ againSteps 0 count labels

def againEvents (count : ℕ) (labels : List String) : List (Event (rowSystem againSettings)) :=
  Config.events (S := rowSystem againSettings) { world := { db := sampleDatabase } }
    (againMoves count labels)

/-- A merge request that lost its label is completed under the id of its row. -/
theorem work_keeps_added_again :
    (∀ e ∈ againEvents 20 [], ∀ target ∈ RowTask.target e.entry, OnOwnRow target.1 target.2 e) ∧
      ∀ e ∈ againEvents 20 [], ∀ target ∈ RowTask.target e.entry,
        QueueOp.KeepsOthers target.2 e.before.db e.after.db := by
  have hsteps : ∀ e ∈ againEvents 20 [], ∀ target ∈ RowTask.target e.entry,
      OnOwnRow target.1 target.2 e := by
    decide +kernel
  exact ⟨hsteps, work_keeps_others againSettings { db := sampleDatabase } (againMoves 20 [])
    hsteps⟩

/-- A waiting row that leaves the queued state was changed in more than its feedback. -/
theorem not_keepsOthers_of_waiting {rowId : ℕ} {db db' : Database} {r : MergeRequestRow}
    (hr : r ∈ db.mergeRequests.rows) (hid : r.id ≠ rowId) (hwaits : r.status = .queued)
    (hleft : ∀ r' ∈ db'.mergeRequests.rows, r'.status ≠ .queued) :
    ¬ QueueOp.KeepsOthers rowId db db' := by
  intro hkeeps
  obtain ⟨r', hr', note, rfl⟩ := hkeeps r hr hid
  exact hleft _ hr' hwaits

/-- The work on the first row takes the second one out of the queued state. -/
theorem work_changes_added_again : ∃ e ∈ againEvents 1 ["merge_queue"],
    RowTask.target e.entry = some (7, 1) ∧ ¬ QueueOp.KeepsOthers 1 e.before.db e.after.db := by
  have hchanged : ∃ e ∈ againEvents 1 ["merge_queue"],
      RowTask.target e.entry = some (7, 1) ∧
      (∃ r ∈ e.before.db.mergeRequests.rows, r.id ≠ 1 ∧ r.status = .queued) ∧
      ∀ r' ∈ e.after.db.mergeRequests.rows, r'.status ≠ .queued := by
    decide +kernel
  obtain ⟨e, he, htarget, ⟨r, hr, hid, hwaits⟩, hleft⟩ := hchanged
  exact ⟨e, he, htarget, not_keepsOthers_of_waiting hr hid hwaits hleft⟩

end MergeQueue
