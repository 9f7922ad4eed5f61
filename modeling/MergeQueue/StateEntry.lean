import MergeQueue.CompletionSteps
import MergeQueue.StateMachine

/-!
# What a transition asks for

A trigger of the state machine looks at no branch and no pipeline, and waits for
nothing but locks.  Where it returns, the machine is in the state that its event leads to.
-/

namespace MergeQueue

open Interleave (Program)
open Interleave.Program (Asks Keeps Leaves)

/-- `permits` allows what the entry into a state other than testing asks for. -/
structure Op.Enters (settings : Settings) (permits : Op → Prop) : Prop where
  tends : ∀ {op}, op.tends = true → permits op
  locks : ∀ projectId mrIid, permits (.acquire (.completion projectId mrIid)) ∧
    permits (.release (.completion projectId mrIid))
  write : ∀ {projectId mrIid state}, state ≠ .testing →
    permits (.db (.updateMrState projectId mrIid state {}))
  prepare : ∀ {mrIid request},
    permits (.db (.prepareCompletion settings.gitlabProjectId mrIid request))
  carries : ∀ item, Op.Carries settings item (fun _ ↦ True) permits

/-! ## Writes and comments -/

section Steps

variable {settings : Settings} {permits : Op → Prop} {K : Option Machine → Prop}

/-- A write changes what the task knows of the row, and not its machine. -/
theorem keeps_updateMrState {projectId mrIid : ℕ} {state : Status} {extra : QueueManager.Extra}
    (h : permits (.db (.updateMrState projectId mrIid state extra))) :
    (Prog.updateMrState projectId mrIid state extra).Keeps permits fun s ↦ K s.machine :=
  Keeps.bind (Keeps.call h) fun _ ↦ Keeps.update fun _ hs ↦ hs

theorem keeps_machine : Prog.machine.Keeps permits fun s ↦ K s.machine := by
  refine Keeps.bind Keeps.read fun s ↦ ?_
  cases s.machine with
  | none => exact Keeps.throw _
  | some m => exact Keeps.ret m

theorem keeps_withLock {α : Type} {inv : Local → Prop} {lock : LockName} {body : Prog α}
    (hacquire : permits (.acquire lock)) (hrelease : permits (.release lock))
    (hbody : body.Keeps permits inv) : (Prog.withLock lock body).Keeps permits inv :=
  Keeps.bind (Keeps.call hacquire) fun _ ↦ Keeps.ensuring hbody (Keeps.call hrelease)

/-- A notice that tells no outcome is about the queue alone. -/
theorem tends_announce {mrIid : ℕ} {notice : Notice}
    (h : ∀ template, notice.status ≠ .outcome template) :
    (MRNotifier.announce settings mrIid notice).Tends :=
  MRNotifier.tends_notify h

end Steps

/-! ## The completion of a lifecycle -/

namespace QueueCompletion

variable {settings : Settings}

theorem progressive_true : CompletionPayload.Progressive fun _ ↦ True where
  commentSent _ := trivial
  labelsRemoved _ := trivial
  operations _ _ := trivial
  events _ _ := trivial

theorem carries_settles (item : QueueItem) :
    Op.Carries settings item (fun _ ↦ True) fun op ↦ op.settles = true where
  tends := Op.settles_of_tends
  comment _ := rfl
  progress _ := rfl
  archive _ _ := rfl

theorem leaves_finish_enters {permits : Op → Prop} (hP : Op.Enters settings permits)
    (item : QueueItem) : (finish settings item).Leaves permits := by
  cases hpending : item.pendingCompletion with
  | none =>
      simp only [finish, hpending]
      exact Leaves.throw _
  | some payload =>
      exact leaves_finish_of progressive_true (hP.carries item) hpending trivial

theorem enters_settles : Op.Enters settings fun op ↦ op.settles = true where
  tends := Op.settles_of_tends
  locks _ _ := ⟨rfl, rfl⟩
  write := by
    intro projectId mrIid state hstate
    cases state with
    | testing => exact absurd rfl hstate
    | _ => rfl
  prepare := rfl
  carries := carries_settles

/-- A completion leaves the state machine of its task alone. -/
theorem keeps_complete {permits : Op → Prop} (hP : Op.Enters settings permits)
    {K : Option Machine → Prop} (mrIid : ℕ) (request : CompletionRequest) :
    (complete settings mrIid request).Keeps permits fun s ↦ K s.machine := by
  have hprepare : (Prog.withLock (.notification settings.gitlabProjectId mrIid)
      (Prog.db (.prepareCompletion settings.gitlabProjectId mrIid request))).Keeps permits
        fun s ↦ K s.machine := keeps_withLock (hP.tends rfl) (hP.tends rfl) (Keeps.call hP.prepare)
  refine keeps_withLock (hP.locks _ _).1 (hP.locks _ _).2 (Keeps.bind hprepare fun item ↦ ?_)
  cases item with
  | none => exact Keeps.ret ()
  | some item =>
      have hview : (Prog.takeView item.state).Keeps permits fun s ↦ K s.machine :=
        Keeps.update fun _ hs ↦ hs
      exact Keeps.bind hview fun _ ↦ (leaves_finish_enters hP item).keeps _

/-- A recovery asks for what a completion may ask for. -/
theorem leaves_recover {permits : Op → Prop} (hP : Op.Enters settings permits)
    (mrIid queueId : ℕ) : (recover settings mrIid queueId).Leaves permits := by
  refine Prog.leaves_withLock (hP.locks _ _).1 (hP.locks _ _).2 ?_
  refine Leaves.bind (Prog.leaves_await (hP.tends rfl)) fun found ↦ ?_
  cases found with
  | none => exact Leaves.ret ()
  | some item =>
      simp only
      split_ifs
      · exact leaves_finish_enters hP item
      · exact Leaves.ret ()

end QueueCompletion

/-! ## Callbacks -/

namespace MRStateMachine

variable {settings : Settings} {permits : Op → Prop} {K : Option Machine → Prop}

theorem tends_getQueuePosition (projectId mrIid : ℕ) : (getQueuePosition projectId mrIid).Tends :=
  (Prog.tends_db rfl).bind fun _ ↦ Leaves.ret _

/-- What tends to the queue may belong to the entry into a state. -/
theorem keeps_of_tends {α : Type} {p : Prog α} (htends : ∀ {op : Op}, op.tends = true → permits op)
    (h : p.Tends) {inv : Local → Prop} : p.Keeps permits inv :=
  (Leaves.mono h fun _ ↦ htends).keeps inv

theorem keeps_finishCompletion (hP : Op.Enters settings permits) (m : Machine)
    (request : CompletionRequest) :
    (finishCompletion settings m request).Keeps permits fun s ↦ K s.machine :=
  Keeps.bind (keeps_of_tends hP.tends QueuePositionNotifier.tends_capturePositionsIfEnabled) fun _ ↦
    QueueCompletion.keeps_complete hP m.mrIid _

theorem tends_timeoutDuration (m : Machine) : (timeoutDuration m).Tends := by
  unfold timeoutDuration
  split_ifs
  · exact (Prog.tends_db rfl).bind fun _ ↦ (Prog.tends_await rfl).bind fun _ ↦ Leaves.ret _
  · exact Leaves.ret _

theorem keeps_onEnterQueued (hP : Op.Enters settings permits) {m : Machine}
    (hm : K (some { m with suppressQueuedNotification := false })) :
    (onEnterQueued settings m).Keeps permits fun s ↦ K s.machine := by
  unfold onEnterQueued
  split_ifs
  · exact Keeps.update fun _ _ ↦ hm
  · refine Keeps.bind (keeps_of_tends hP.tends (tends_getQueuePosition _ _)) fun position ↦ ?_
    refine Keeps.bind (keeps_of_tends hP.tends QueuePositionNotifier.tends_getQueueLength)
      fun total ↦ ?_
    refine Keeps.bind (Keeps.call (hP.tends rfl)) fun queuedAt ↦ ?_
    exact Keeps.bind (keeps_of_tends hP.tends (tends_announce fun _ ↦ by simp [Notice.status]))
      fun _ ↦ keeps_of_tends hP.tends (tends_broadcast settings)

theorem keeps_onEnterRebasing (hP : Op.Enters settings permits) (m : Machine) :
    (onEnterRebasing settings m).Keeps permits fun s ↦ K s.machine := by
  refine Keeps.bind (keeps_updateMrState (hP.write (by decide))) fun _ ↦ ?_
  refine Keeps.bind (Keeps.call (hP.tends rfl)) fun _ ↦ ?_
  exact Keeps.bind (keeps_of_tends hP.tends (tends_announce fun _ ↦ by simp [Notice.status]))
    fun _ ↦ keeps_of_tends hP.tends (tends_broadcast settings)

/-- The only write on the way to testing is that of the pipeline and the expected head. -/
theorem keeps_onEnterTesting {permits : Op → Prop} {m : Machine}
    (htends : ∀ op : Op, op.tends = true → permits op)
    (hwrite : permits (.db (.updateMrState m.projectId m.mrIid .testing
      { pipelineId := some m.context.pipelineId
        pipelineStatus := some (some .running)
        expectedSha := some m.context.expectedSha }))) :
    (onEnterTesting settings m).Keeps permits fun s ↦ K s.machine := by
  refine Keeps.bind (keeps_updateMrState hwrite) fun _ ↦ ?_
  refine Keeps.bind (Keeps.call (htends _ rfl)) fun _ ↦ ?_
  have hnotice (at_ : ℤ) : (MRNotifier.announce settings m.mrIid
      (.testing m.context.pipelineId m.context.pipelineUrl at_)).Tends :=
    tends_announce fun _ ↦ by simp [Notice.status]
  exact Keeps.bind ((Leaves.mono (hnotice _) htends).keeps _) fun _ ↦
    (Leaves.mono (tends_broadcast settings) htends).keeps _

theorem keeps_onEnterMerging (hP : Op.Enters settings permits) (m : Machine) :
    (onEnterMerging settings m).Keeps permits fun s ↦ K s.machine := by
  refine Keeps.bind (keeps_updateMrState (hP.write (by decide))) fun _ ↦ ?_
  exact Keeps.bind (keeps_of_tends hP.tends (tends_announce fun _ ↦ by simp [Notice.status]))
    fun _ ↦ keeps_of_tends hP.tends (tends_broadcast settings)

theorem keeps_onEnterMerged (hP : Op.Enters settings permits) (m : Machine) :
    (onEnterMerged settings m).Keeps permits fun s ↦ K s.machine :=
  Keeps.bind (Keeps.call (hP.tends rfl)) fun _ ↦ Keeps.bind (Keeps.call (hP.tends rfl)) fun _ ↦
    Keeps.bind (Keeps.call (hP.tends rfl)) fun _ ↦ keeps_finishCompletion hP m _

theorem keeps_onEnterFailed (hP : Op.Enters settings permits) (m : Machine) :
    (onEnterFailed settings m).Keeps permits fun s ↦ K s.machine :=
  Keeps.bind (Keeps.call (hP.tends rfl)) fun _ ↦
    Keeps.bind (keeps_of_tends hP.tends (tends_timeoutDuration m)) fun _ ↦
      keeps_finishCompletion hP m _

theorem keeps_onEnterRemoved (hP : Op.Enters settings permits) (m : Machine) :
    (onEnterRemoved settings m).Keeps permits fun s ↦ K s.machine := by
  refine Keeps.bind (Keeps.call (hP.tends rfl)) fun removedAt ↦ ?_
  split
  · refine Keeps.bind (Keeps.call (hP.tends rfl)) fun _ ↦ ?_
    refine Keeps.bind (Keeps.call (hP.tends rfl)) fun _ ↦ ?_
    exact Keeps.bind (Keeps.call (hP.tends rfl)) fun _ ↦ keeps_finishCompletion hP m _
  · refine Keeps.bind (Keeps.call (hP.tends rfl)) fun _ ↦ ?_
    refine Keeps.bind (Keeps.call (hP.tends rfl)) fun _ ↦ ?_
    exact Keeps.bind (Keeps.call (hP.tends rfl)) fun _ ↦ keeps_finishCompletion hP m _
  · exact keeps_finishCompletion hP m _
  · exact Keeps.bind (keeps_of_tends hP.tends (tends_getQueuePosition _ _)) fun _ ↦
      keeps_finishCompletion hP m _
  · exact Keeps.bind (keeps_of_tends hP.tends (tends_getQueuePosition _ _)) fun _ ↦
      keeps_finishCompletion hP m _

/-- A callback keeps what a machine without its two flags for one entry satisfies. -/
theorem keeps_onEnter (hP : Op.Enters settings permits) {m : Machine}
    (htesting : m.current ≠ .testing)
    (hskip : K (some { m with skipInitialEnter := false }))
    (hsuppress : K (some { m with suppressQueuedNotification := false })) :
    (onEnter settings m).Keeps permits fun s ↦ K s.machine := by
  unfold onEnter
  split_ifs
  · exact Keeps.update fun _ _ ↦ hskip
  · split
    · exact keeps_onEnterQueued hP hsuppress
    · exact keeps_onEnterRebasing hP m
    · next hcurrent => exact absurd hcurrent htesting
    · exact keeps_onEnterMerging hP m
    · exact keeps_onEnterMerged hP m
    · exact keeps_onEnterFailed hP m
    · exact keeps_onEnterRemoved hP m

/-! ## Triggers -/

/-- The machine of the task is in a state that `event` leads to. -/
def Reached (event : MachineEvent) (s : Local) : Prop :=
  ∃ m source, s.machine = some m ∧ transition event source = some m.current

theorem transition_ne_testing {event : MachineEvent} {source target : Status}
    (hevent : event ≠ .rebaseComplete) (h : transition event source = some target) :
    target ≠ .testing := by
  rintro rfl
  cases event <;> cases source <;> first | exact absurd rfl hevent | cases h

theorem asks_machine {permits : Op → Prop} :
    Prog.machine.Asks (fun _ _ ↦ True) (fun _ op ↦ permits op) (fun s ↦ K s.machine)
      (fun m s ↦ K (some m) ∧ K s.machine) fun _ _ ↦ True := by
  have hread : (Program.read : Prog Local).Asks (fun _ _ ↦ True) (fun _ op ↦ permits op)
      (fun s ↦ K s.machine) (fun s' s ↦ K s.machine ∧ s' = s) fun _ _ ↦ True :=
    Asks.read fun s hs ↦ ⟨hs, rfl⟩
  refine Asks.bind hread fun s ↦ ?_
  cases hmachine : s.machine with
  | none => exact Asks.throw fun _ _ ↦ trivial
  | some m =>
      refine Asks.ret fun s' hs ↦ ?_
      obtain ⟨hs, rfl⟩ := hs
      exact ⟨hmachine ▸ hs, hs⟩

/-- A trigger other than the one that leads to testing. -/
theorem asks_fire (hP : Op.Enters settings permits) {event : MachineEvent}
    (hevent : event ≠ .rebaseComplete) :
    (fire settings event).Asks (fun _ _ ↦ True) (fun _ op ↦ permits op) (fun _ ↦ True)
      (fun _ ↦ Reached event) fun _ _ ↦ True := by
  have hmachine : Prog.machine.Keeps permits fun _ : Local ↦ True :=
    keeps_machine (K := fun _ ↦ True)
  refine Asks.bind hmachine fun m ↦ ?_
  cases htarget : transition event m.current with
  | none => exact Asks.throw fun _ _ ↦ trivial
  | some target =>
      have henter : (onEnter settings { m with current := target }).Keeps
          permits
          fun s ↦ ∃ m' source, s.machine = some m' ∧ transition event source = some m'.current :=
        keeps_onEnter hP (K := fun machine ↦ ∃ m' source, machine = some m' ∧
            transition event source = some m'.current) (transition_ne_testing hevent htarget)
          ⟨_, m.current, rfl, htarget⟩ ⟨_, m.current, rfl, htarget⟩
      have hmoved : (keep { m with current := target }).Asks (fun _ _ ↦ True)
          (fun _ op ↦ permits op) (fun _ ↦ True) (fun _ ↦ Reached event) fun _ _ ↦ True :=
        Asks.update fun s _ ↦ ⟨_, m.current, rfl, htarget⟩
      exact Asks.bind hmoved fun _ ↦
        Asks.mono henter (fun _ _ h ↦ h) (fun _ h ↦ h) (fun _ _ h ↦ h) fun _ _ _ ↦ trivial

theorem keeps_fire (hP : Op.Enters settings permits) {event : MachineEvent}
    (hevent : event ≠ .rebaseComplete) :
    (fire settings event).Keeps permits fun _ ↦ True :=
  (asks_fire hP hevent).weaken (fun _ h ↦ h) fun _ _ _ ↦ trivial

theorem keeps_setContext (f : MachineContext → MachineContext) :
    (setContext f).Keeps permits fun _ ↦ True :=
  Keeps.bind (keeps_machine (K := fun _ ↦ True)) fun _ ↦ Keeps.update fun _ _ ↦ trivial

theorem asks_triggerPipelineFailed (hP : Op.Enters settings permits) (failedJobs : List String)
    (retriedJobs : List (String × ℕ)) (errorMessage : String) :
    (triggerPipelineFailed settings failedJobs retriedJobs errorMessage).Asks (fun _ _ ↦ True)
      (fun _ op ↦ permits op) (fun _ ↦ True) (fun _ ↦ Reached .pipelineFailed)
      fun _ _ ↦ True :=
  Asks.bind (keeps_setContext _) fun _ ↦ asks_fire hP (by decide)

theorem keeps_triggerPipelineFailed (hP : Op.Enters settings permits) (failedJobs : List String)
    (retriedJobs : List (String × ℕ)) (errorMessage : String) :
    (triggerPipelineFailed settings failedJobs retriedJobs errorMessage).Keeps
      permits fun _ ↦ True :=
  Keeps.bind (keeps_setContext _) fun _ ↦ keeps_fire hP (by decide)

theorem keeps_triggerConflictDuringTesting (hP : Op.Enters settings permits)
    (conflictedFiles : List String) (errorMessage : String) :
    (triggerConflictDuringTesting settings conflictedFiles errorMessage).Keeps
      permits fun _ ↦ True :=
  Keeps.bind (keeps_setContext _) fun _ ↦ keeps_fire hP (by decide)

theorem keeps_triggerRebaseFailed (hP : Op.Enters settings permits)
    (conflictedFiles : List String) (errorMessage : String) :
    (triggerRebaseFailed settings conflictedFiles errorMessage).Keeps
      permits fun _ ↦ True :=
  Keeps.bind (keeps_setContext _) fun _ ↦ keeps_fire hP (by decide)

theorem keeps_triggerMarkRemoved (hP : Op.Enters settings permits) (reason : RemovalReason) :
    (triggerMarkRemoved settings reason).Keeps permits fun _ ↦ True :=
  Keeps.bind (keeps_machine (K := fun _ ↦ True)) fun _ ↦
    Keeps.bind (Keeps.update fun _ _ ↦ trivial) fun _ ↦ keeps_fire hP (by decide)

theorem keeps_triggerTimeout (hP : Op.Enters settings permits) (maxWaitHours : ℕ) :
    (triggerTimeout settings maxWaitHours).Keeps permits fun _ ↦ True := by
  refine Keeps.bind (keeps_machine (K := fun _ ↦ True)) fun m ↦ ?_
  refine Keeps.bind (Keeps.update fun _ _ ↦ trivial) fun _ ↦ ?_
  cases hevent : timeoutEvent m.current with
  | none => exact Keeps.ret ()
  | some event =>
      refine keeps_fire hP ?_
      rintro rfl
      cases hcurrent : m.current <;> rw [hcurrent] at hevent <;> cases hevent

/-- The one trigger that leads to testing writes the pipeline and the head that it is given. -/
theorem keeps_triggerRebaseComplete {permits : Op → Prop} (pipelineId : ℕ)
    (pipelineUrl expectedSha : String) (htends : ∀ op : Op, op.tends = true → permits op)
    (hwrite : ∀ projectId mrIid, permits (.db (.updateMrState projectId mrIid .testing
      { pipelineId := some (some pipelineId)
        pipelineStatus := some (some .running)
        expectedSha := some (some expectedSha) }))) :
    (triggerRebaseComplete settings pipelineId pipelineUrl expectedSha).Keeps permits
      fun _ ↦ True := by
  let given : Option Machine → Prop := fun machine ↦ ∀ m, machine = some m →
    m.context.pipelineId = some pipelineId ∧ m.context.expectedSha = some expectedSha
  have hcontext : (setContext fun c ↦
      { c with
        pipelineId := some pipelineId
        pipelineUrl := some pipelineUrl
        expectedSha := some expectedSha }).Asks (fun _ _ ↦ True) (fun _ op ↦ permits op)
      (fun _ ↦ True) (fun _ s ↦ given s.machine) fun _ _ ↦ True := by
    refine Asks.bind (keeps_machine (K := fun _ ↦ True)) fun m ↦ Asks.update fun s _ m' hm' ↦ ?_
    cases hm'
    exact ⟨rfl, rfl⟩
  refine Asks.bind hcontext fun _ ↦ Asks.bind asks_machine fun m ↦ ?_
  cases htarget : transition .rebaseComplete m.current with
  | none => exact Asks.throw fun _ _ ↦ trivial
  | some target =>
      obtain rfl : target = .testing := by
        cases hcurrent : m.current <;> rw [hcurrent] at htarget <;> cases htarget
        rfl
      refine fun s hs ↦ ?_
      obtain ⟨hpipeline, hsha⟩ := hs.1 m rfl
      have henter : (onEnterTesting settings { m with current := .testing }).Keeps permits
          fun _ ↦ True :=
        keeps_onEnterTesting (K := fun _ ↦ True) htends (by
          simp only [hpipeline, hsha]
          exact hwrite _ _)
      refine Keeps.bind (Keeps.update fun _ _ ↦ trivial) (fun _ ↦ ?_) s trivial
      unfold onEnter
      split_ifs
      · exact Keeps.update fun _ _ ↦ trivial
      · exact henter

/-! ## Comments without a transition -/

theorem keeps_notifyJobRetry (hP : Op.Enters settings permits) (pipelineId : ℕ)
    (pipelineUrl : String) (retriedJobs : List String) (retriedCounts : List (String × ℕ))
    (maxRetries : ℕ) :
    (notifyJobRetry settings pipelineId pipelineUrl retriedJobs retriedCounts maxRetries).Keeps
      permits fun _ ↦ True :=
  Keeps.bind (keeps_machine (K := fun _ ↦ True)) fun _ ↦
    keeps_of_tends hP.tends (tends_announce fun _ ↦ by simp [Notice.status])

/-- The only write with a new pipeline is that of the pipeline and its head. -/
theorem keeps_notifyRebaseDuringTesting {permits : Op → Prop} (oldPipelineId : Option ℕ)
    (newPipelineId rebaseCount maxAttempts : ℕ) (expectedSha : String)
    (htends : ∀ op : Op, op.tends = true → permits op)
    (hwrite : ∀ projectId mrIid, permits (.db (.updateMrState projectId mrIid .testing
      { pipelineId := some (some newPipelineId)
        pipelineStatus := some (some .running)
        expectedSha := some (some expectedSha) }))) :
    (notifyRebaseDuringTesting settings oldPipelineId newPipelineId rebaseCount maxAttempts
      expectedSha).Keeps permits fun _ ↦ True := by
  refine Keeps.bind (keeps_machine (K := fun _ ↦ True)) fun m ↦ ?_
  refine Keeps.bind (keeps_updateMrState (K := fun _ ↦ True) (hwrite _ _)) fun _ ↦ ?_
  refine Keeps.bind ((Leaves.mono (MRNotifier.tends_buildPipelineUrl _) htends).keeps _)
    fun url ↦ ?_
  refine Keeps.bind (keeps_setContext _) fun _ ↦ ?_
  have hnotice : (MRNotifier.announce settings m.mrIid
      (.rebaseDuringTesting oldPipelineId newPipelineId url rebaseCount maxAttempts)).Tends :=
    tends_announce fun _ ↦ by simp [Notice.status]
  exact (Leaves.mono hnotice htends).keeps _

end MRStateMachine

end MergeQueue
