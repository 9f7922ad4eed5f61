import MergeQueue.StateMachine
import MergeQueue.Lib.Solo

/-!
# A task that runs alone

No other task runs and no await fails.  Then only a lock that the task holds itself
could stop it.
-/

namespace MergeQueue

open Interleave (Program Stage)
open Interleave.Program (Finishes)

def alone (settings : Settings) : Stage Op Op.Answer PyError World Choice where
  exec choice op w := World.exec settings.qm 0 choice op w
  fair choice := choice.fault = none

def Op.isLock : Op → Bool
  | acquire _ | release _ => true
  | _ => false

/-- The locks of the feedback are free. -/
def NotificationsFree (locks : List (LockName × ℕ)) : Prop :=
  ∀ entry ∈ locks, ∀ projectId mrIid, entry.1 ≠ .notification projectId mrIid

/-- Where the locks are `ready`, the program comes to an end, gives back the locks that
it takes, leaves the state of its task alone and keeps what the operations in `permits`
keep. -/
def Prog.Calm {α : Type} (settings : Settings) (ready : List (LockName × ℕ) → Prop)
    (permits : Op → Prop) (p : Prog α) : Prop :=
  ∀ K : List Op → World → Prop,
    (∀ op choice log w answer w', permits op → choice.fault = none →
      World.exec settings.qm 0 choice op w = some (answer, w') → K log w → K (log ++ [op]) w') →
    ∀ s log w, ready w.locks → K log w →
      p.Finishes (alone settings) s log w fun _ s' log' w' ↦
        K log' w' ∧ w'.locks = w.locks ∧ s' = s

section Steps

variable {settings : Settings} {s : Local} {log : List Op} {w : World}

/-- An operation on no lock happens. -/
theorem exec_of_not_isLock {op : Op} {choice : Choice} (hop : op.isLock = false)
    (hfault : choice.fault = none) :
    ∃ answer w', World.exec settings.qm 0 choice op w = some (answer, w') ∧
      w'.locks = w.locks := by
  have hsome : ∃ answer w', World.exec settings.qm 0 choice op w = some (answer, w') := by
    cases op with
    | acquire | release => cases hop
    | db | now | uuid | shutdownRequested => exact ⟨_, _, rfl⟩
    | gitlab | sleep | broadcast =>
        simp only [World.exec, hfault]
        exact ⟨_, _, rfl⟩
  obtain ⟨answer, w', hexec⟩ := hsome
  refine ⟨answer, w', hexec, World.exec_locks_eq hexec ?_ ?_⟩
  · rintro lock rfl
    cases hop
  · rintro lock rfl
    cases hop

theorem held_eq_false {lock : LockName} (h : ∀ entry ∈ w.locks, entry.1 ≠ lock) :
    w.held lock = false := by
  simp only [World.held, List.any_eq_false, decide_eq_true_eq]
  exact h

/-- A lock that was free is free again. -/
theorem filter_acquired {lock : LockName} {locks : List (LockName × ℕ)}
    (h : ∀ entry ∈ locks, entry.1 ≠ lock) :
    ((lock, 0) :: locks).filter (· ≠ (lock, 0)) = locks := by
  rw [List.filter_cons_of_neg (by simp), List.filter_eq_self]
  intro entry hentry
  exact decide_eq_true fun heq ↦ h entry hentry (congrArg Prod.fst heq)

theorem finishes_acquire {lock : LockName}
    {post : Except PyError Unit → Local → List Op → World → Prop} (hfree : w.held lock = false)
    (h : post (.ok ()) s (log ++ [.acquire lock]) { w with locks := (lock, 0) :: w.locks }) :
    Finishes (alone settings) (Prog.await (.acquire lock)) s log w post := by
  refine Finishes.call fun choice hfault ↦ ?_
  have hfault : choice.fault = none := hfault
  exact ⟨_, _, by simp only [alone, World.exec, hfault, hfree, Bool.false_eq_true, if_false], h⟩

theorem finishes_release {lock : LockName}
    {post : Except PyError Unit → Local → List Op → World → Prop}
    (h : post (.ok ()) s (log ++ [.release lock])
      { w with locks := w.locks.filter (· ≠ (lock, 0)) }) :
    Finishes (alone settings) (Prog.await (.release lock)) s log w post :=
  Finishes.call fun _ _ ↦ ⟨_, _, rfl, h⟩

theorem finishes_now {post : Except PyError ℤ → Local → List Op → World → Prop}
    (h : ∀ t, post (.ok t) s (log ++ [.now]) w) :
    Finishes (alone settings) Prog.now s log w post :=
  Finishes.call fun choice _ ↦ ⟨_, _, rfl, h choice.now⟩

theorem finishes_uuid {post : Except PyError Uuid → Local → List Op → World → Prop}
    (h : ∀ token, post (.ok token) s (log ++ [.uuid]) w) :
    Finishes (alone settings) (Prog.await .uuid) s log w post :=
  Finishes.call fun choice _ ↦ ⟨_, _, rfl, h (choice.tokens 0)⟩

theorem finishes_gitlab {call : GitLabCall}
    {post : Except PyError call.Answer → Local → List Op → World → Prop}
    (h : ∀ answer, post (.ok answer) s (log ++ [.gitlab call])
      { w with reports := w.reports ++ call.reports answer }) :
    Finishes (alone settings) (Prog.gitlab call) s log w post := by
  refine Finishes.call fun choice hfault ↦ ?_
  have hfault : choice.fault = none := hfault
  exact ⟨_, _, by simp only [alone, World.exec, hfault], h (choice.gitlab call)⟩

theorem finishes_db {op : QueueOp}
    {post : Except PyError op.Answer → Local → List Op → World → Prop}
    (h : ∀ now tokens, post
      ((op.exec settings.qm now tokens w.db).mapError PyError.queue |>.map Prod.fst) s
      (log ++ [.db op]) { w with db := committed w.db (op.exec settings.qm now tokens w.db) }) :
    Finishes (alone settings) (Prog.db op) s log w post := by
  refine Finishes.call fun choice hfault ↦ ?_
  have hfault : choice.fault = none := hfault
  exact ⟨_, _, by simp only [alone, World.exec, World.transact, hfault],
    h choice.now choice.tokens⟩

theorem finishes_getQueueItem {projectId mrIid : ℕ}
    {post : Except PyError (Option QueueItem) → Local → List Op → World → Prop}
    (h : post (.ok (w.db.selectQueueItem projectId mrIid)) s
      (log ++ [.db (.getQueueItem projectId mrIid)]) w) :
    Finishes (alone settings) (Prog.getQueueItem projectId mrIid) s log w post :=
  finishes_db fun _ _ ↦ h

theorem finishes_capture {K : List Op → Prop}
    (hK : ∀ log op, op.plain = true → K log → K (log ++ [op])) (hlog : K log)
    {post : Except PyError (List (ℕ × ℕ) × ℕ) → Local → List Op → World → Prop}
    (hpost : ∀ out log', K log' → post (.ok out) s log' w) :
    Finishes (alone settings) (QueuePositionNotifier.capturePositionsIfEnabled settings) s log w
      post := by
  unfold QueuePositionNotifier.capturePositionsIfEnabled
  split_ifs
  · refine Finishes.bind (Finishes.bind (finishes_db fun _ _ ↦ Finishes.ret ?_))
    refine Finishes.bind (Finishes.bind (finishes_db fun _ _ ↦ Finishes.ret (Finishes.ret ?_)))
    exact hpost _ _ (hK _ _ rfl (hK _ _ rfl hlog))
  · exact Finishes.ret (hpost _ _ hlog)

section Machine

variable {m : Machine}

theorem finishes_machine {post : Except PyError Machine → Local → List Op → World → Prop}
    (hm : s.machine = some m) (h : post (.ok m) s log w) :
    Finishes (alone settings) Prog.machine s log w post := by
  refine Finishes.bind (Finishes.read ?_)
  simp only [hm]
  exact Finishes.ret h

theorem finishes_setContext {f : MachineContext → MachineContext}
    {post : Except PyError Unit → Local → List Op → World → Prop} (hm : s.machine = some m)
    (h : post (.ok ()) { s with machine := some { m with context := f m.context } } log w) :
    Finishes (alone settings) (MRStateMachine.setContext f) s log w post :=
  Finishes.bind (finishes_machine hm (Finishes.update h))

theorem finishes_fire {event : MachineEvent} {target : Status}
    {post : Except PyError Unit → Local → List Op → World → Prop} (hm : s.machine = some m)
    (htarget : MRStateMachine.transition event m.current = some target)
    (h : Finishes (alone settings) (MRStateMachine.onEnter settings { m with current := target })
      { s with machine := some { m with current := target } } log w post) :
    Finishes (alone settings) (MRStateMachine.fire settings event) s log w post := by
  refine Finishes.bind (finishes_machine hm ?_)
  simp only [htarget]
  exact Finishes.bind (Finishes.update h)

/-- The machine of a row takes over its state, without entering it. -/
theorem finishes_create {item : QueueItem} {mrIid : ℕ} {targetBranch : String}
    {post : Except PyError Unit → Local → List Op → World → Prop}
    (hitem : w.db.selectQueueItem settings.gitlabProjectId mrIid = some item)
    (h : post (.ok ())
      { s with
        machine := some
          { projectId := settings.gitlabProjectId
            mrIid
            targetBranch
            queueId := some item.queueId
            current := item.state }
        view := item.state }
      (log ++ [.db (.getQueueItem settings.gitlabProjectId mrIid)]) w) :
    Finishes (alone settings) (MRStateMachine.create settings mrIid targetBranch) s log w post := by
  refine Finishes.bind (finishes_getQueueItem ?_)
  simp only [hitem]
  exact Finishes.bind (Finishes.update (Finishes.update h))

end Machine

end Steps

namespace Prog.Calm

variable {settings : Settings} {ready ready' : List (LockName × ℕ) → Prop}
  {permits permits' : Op → Prop} {α β : Type} {p : Prog α}

theorem mono (h : p.Calm settings ready permits) (hpermits : ∀ op, permits op → permits' op) :
    p.Calm settings ready permits' :=
  fun K hK ↦ h K fun op choice log w answer w' hop ↦
    hK op choice log w answer w' (hpermits op hop)

theorem ret (a : α) : Calm settings ready permits (Pure.pure a : Prog α) :=
  fun _ _ _ _ _ _ hw ↦ ⟨hw, rfl, rfl⟩

theorem throw (e : PyError) : Calm settings ready permits (MonadExcept.throw e : Prog α) :=
  fun _ _ _ _ _ _ hw ↦ ⟨hw, rfl, rfl⟩

theorem bind {f : α → Prog β} (h : p.Calm settings ready permits)
    (hf : ∀ a, (f a).Calm settings ready permits) : Calm settings ready permits (p >>= f) := by
  intro K hK s log w hready hw
  refine Finishes.bind ((h K hK s log w hready hw).mono fun result s' log' w' hr ↦ ?_)
  obtain ⟨hw', hlocks, rfl⟩ := hr
  cases result with
  | error e => exact ⟨hw', hlocks, rfl⟩
  | ok a =>
      refine (hf a K hK s' log' w' (hlocks ▸ hready) hw').mono fun _ _ _ _ hr ↦ ?_
      exact ⟨hr.1, hr.2.1.trans hlocks, hr.2.2⟩

theorem handle {h : PyError → Prog α} (hp : p.Calm settings ready permits)
    (hh : ∀ e, (h e).Calm settings ready permits) :
    Calm settings ready permits (tryCatch p h) := by
  intro K hK s log w hready hw
  refine Finishes.handle ((hp K hK s log w hready hw).mono fun result s' log' w' hr ↦ ?_)
  obtain ⟨hw', hlocks, rfl⟩ := hr
  cases result with
  | ok a => exact ⟨hw', hlocks, rfl⟩
  | error e =>
      refine (hh e K hK s' log' w' (hlocks ▸ hready) hw').mono fun _ _ _ _ hr ↦ ?_
      exact ⟨hr.1, hr.2.1.trans hlocks, hr.2.2⟩

theorem await {op : Op} (hlock : op.isLock = false) (hop : permits op) :
    Calm settings ready permits (Prog.await op) := by
  intro K hK s log w _ hw
  refine Finishes.call fun choice hfault ↦ ?_
  obtain ⟨answer, w', hexec, hlocks⟩ := exec_of_not_isLock hlock hfault
  exact ⟨answer, w', hexec, hK op choice log w answer w' hop hfault hexec hw, hlocks, rfl⟩

theorem db {op : QueueOp} (hop : permits (.db op)) :
    Calm settings ready permits (Prog.db op) := await rfl hop

theorem gitlab {call : GitLabCall} (hop : permits (.gitlab call)) :
    Calm settings ready permits (Prog.gitlab call) := await rfl hop

theorem forEach {body : β → Prog Unit} {bs : List β}
    (h : ∀ b ∈ bs, (body b).Calm settings ready permits) :
    Calm settings ready permits (Program.forEach body bs) := by
  induction bs with
  | nil => exact ret ()
  | cons b bs ih =>
      rw [List.forall_mem_cons] at h
      exact h.1.bind fun _ ↦ ih h.2

/-- The body runs with the lock, which is free before and again afterwards. -/
theorem withLock {lock : LockName} {body : Prog α}
    (hfree : ∀ locks, ready locks → ∀ entry ∈ locks, entry.1 ≠ lock)
    (hacquire : permits (.acquire lock)) (hrelease : permits (.release lock))
    (hbody : body.Calm settings (fun _ ↦ True) permits) :
    Calm settings ready permits (Prog.withLock lock body) := by
  intro K hK s log w hready hw
  have hheld : w.held lock = false := held_eq_false (hfree w.locks hready)
  refine Finishes.bind (Finishes.call fun choice hfault ↦ ?_)
  have hfault : choice.fault = none := hfault
  have hexec : World.exec settings.qm 0 choice (.acquire lock) w =
      some (.ok (), { w with locks := (lock, 0) :: w.locks }) := by
    simp only [World.exec, hfault, hheld, Bool.false_eq_true, if_false]
  refine ⟨_, _, hexec, Finishes.ensuring ?_⟩
  refine (hbody K hK s _ _ trivial (hK _ choice log w _ _ hacquire hfault hexec hw)).mono
    fun result s' log' w' hr ↦ ?_
  obtain ⟨hw', hlocks, rfl⟩ := hr
  refine Finishes.call fun choice hfault ↦ ⟨_, _, rfl, ?_⟩
  refine ⟨hK _ choice log' w' _ _ hrelease hfault rfl hw', ?_, rfl⟩
  rw [hlocks]
  exact filter_acquired (hfree w.locks hready)

end Prog.Calm

/-! ## Comments and completions -/

open Prog (Calm)

section Comments

variable {settings : Settings} {ready : List (LockName × ℕ) → Prop} {permits : Op → Prop}

/-- What the tail of a completion asks for: nothing but plain operations, the progress of
the row `queueId`, and its archival. -/
def Op.completes (queueId : ℕ) : Op → Prop
  | db (.saveCompletionProgress _ id _) => id = queueId
  | db (.finalizeCompletion _ item _) => item.queueId = queueId
  | op => op.plain = true

theorem Op.completes_of_plain {op : Op} {queueId : ℕ} (h : op.plain = true) :
    op.completes queueId := by
  unfold Op.completes
  split
  · cases h
  · cases h
  · exact h

theorem calm_sendNotification {mrIid : ℕ} {status : CommentStatus} {context : Context}
    (h : permits (.gitlab (.addOrUpdatePinnedComment mrIid { status, context }))) :
    Calm settings ready permits (MRNotifier.sendNotification mrIid status context) := by
  unfold MRNotifier.sendNotification Comment.render
  cases (Comment.required status).find? fun key ↦ (context.lookup key).isNone with
  | some key => exact Calm.throw _
  | none => exact Calm.gitlab h

theorem calm_acknowledge (hplain : ∀ op, op.plain = true → permits op) (mrIid : ℕ)
    (pending : Option PendingNotification) :
    Calm settings ready permits (MRNotifier.acknowledge settings mrIid pending) := by
  cases pending with
  | none => exact Calm.ret _
  | some pending => exact Calm.db (hplain _ rfl)

theorem calm_notifyIfQueued (hplain : ∀ op, op.plain = true → permits op) (mrIid : ℕ)
    (status : NotificationStatus) (context : Context) (pending : Option PendingNotification) :
    Calm settings NotificationsFree permits
      (MRNotifier.notifyIfQueued settings mrIid (.waiting status) context pending) := by
  refine Calm.withLock (fun locks h entry hentry ↦ h entry hentry _ _) (hplain _ rfl)
    (hplain _ rfl) ((Calm.db (hplain _ rfl)).bind fun item ↦ ?_)
  cases item with
  | none => exact Calm.ret _
  | some item =>
      simp only
      split_ifs
      · exact Calm.ret _
      · exact calm_acknowledge hplain mrIid pending
      · refine (Calm.db (hplain _ rfl)).bind fun queue ↦ ?_
        split
        · exact Calm.ret _
        · exact (calm_sendNotification (hplain _ rfl)).bind fun _ ↦
            calm_acknowledge hplain mrIid pending

theorem calm_retryPending (hplain : ∀ op, op.plain = true → permits op) :
    Calm settings NotificationsFree permits (QueuePositionNotifier.retryPending settings) := by
  refine (Calm.db (hplain _ rfl)).bind fun queue ↦ Calm.forEach fun item _ ↦ ?_
  unfold QueuePositionNotifier.retryItem
  cases item.pendingNotification with
  | none => exact Calm.ret _
  | some pending =>
      refine (calm_notifyIfQueued hplain _ _ _ _).handle fun e ↦ ?_
      split_ifs
      · exact Calm.ret _
      · exact Calm.throw _

theorem calm_broadcast (hplain : ∀ op, op.plain = true → permits op) :
    Calm settings ready permits (broadcast settings) := by
  unfold broadcast
  split_ifs
  · exact Calm.await rfl (hplain _ rfl)
  · exact Calm.ret _

theorem calm_removeQueueLabel (hplain : ∀ op, op.plain = true → permits op) (mrIid : ℕ)
    (strict : Bool) (operationId : Option Uuid) :
    Calm settings ready permits
      (MRNotifier.removeQueueLabel settings mrIid strict operationId) := by
  refine Calm.handle ?_ fun e ↦ ?_
  · refine Calm.bind ?_ fun mr ↦ Calm.ret _
    cases operationId with
    | none => exact Calm.gitlab (hplain _ rfl)
    | some uuid => exact Calm.gitlab (hplain _ rfl)
  · split_ifs
    · exact Calm.ret _
    · exact Calm.throw _
    · exact Calm.ret _

theorem calm_restoreQueueLabels (hplain : ∀ op, op.plain = true → permits op) (mrIid : ℕ)
    (labels : List String) (operationId : Option Uuid) :
    Calm settings ready permits (MRNotifier.restoreQueueLabels mrIid labels operationId) :=
  (Calm.gitlab (hplain _ rfl)).bind fun _ ↦ Calm.ret _

theorem calm_completionActor (hplain : ∀ op, op.plain = true → permits op) :
    Calm settings ready permits (MRNotifier.completionActor settings) :=
  (Calm.gitlab (hplain _ rfl)).bind fun _ ↦ Calm.ret _

end Comments

namespace QueueCompletion

variable {settings : Settings} {ready : List (LockName × ℕ) → Prop} {item : QueueItem}
  {permits : Op → Prop}

section Progress

variable (hplain : ∀ op, op.plain = true → permits op)
  (hsave : ∀ payload, permits
    (.db (.saveCompletionProgress settings.gitlabProjectId item.queueId payload)))

include hsave

theorem calm_recordLabelEvent (payload : CompletionPayload) (eventAt : Option ℤ) :
    Calm settings ready permits (recordLabelEvent settings item payload eventAt) :=
  (Calm.db (hsave _)).bind fun _ ↦ Calm.ret _

include hplain

theorem calm_labelOperation (payload : CompletionPayload) (action : LabelAction)
    (triggers : List String) :
    Calm settings ready permits (labelOperation settings item payload action triggers) := by
  unfold labelOperation
  split
  · exact Calm.ret _
  · refine Calm.bind (calm_completionActor hplain) fun actor ↦ ?_
    exact (Calm.await rfl (hplain _ rfl)).bind fun uuid ↦
      (Calm.db (hsave _)).bind fun _ ↦ Calm.ret _

theorem calm_mutateLabels (payload : CompletionPayload) (action : LabelAction)
    (triggers : List String) :
    Calm settings ready permits (mutateLabels settings item payload action triggers) := by
  refine (calm_labelOperation hplain hsave payload action triggers).bind fun out ↦ ?_
  cases action with
  | remove => exact (calm_removeQueueLabel hplain _ _ _).bind fun _ ↦ Calm.ret _
  | restore => exact (calm_restoreQueueLabels hplain _ _ _).bind fun _ ↦ Calm.ret _

theorem calm_cleanup (payload : CompletionPayload) :
    Calm settings ready permits (cleanup settings item payload) := by
  unfold cleanup
  split_ifs
  · exact (calm_mutateLabels hplain hsave _ _ _).bind fun out ↦ calm_recordLabelEvent hsave _ _
  · exact Calm.ret _

theorem calm_settleRequeue (payload : CompletionPayload) (request : Option Requeue) :
    Calm settings ready permits (settleRequeue settings item payload request) := by
  unfold settleRequeue
  split
  · exact Calm.ret _
  · split_ifs
    · exact (calm_mutateLabels hplain hsave _ _ _).bind fun out ↦ calm_recordLabelEvent hsave _ _
    · split
      · exact Calm.throw _
      · exact (calm_mutateLabels hplain hsave _ _ _).bind fun out ↦
          calm_recordLabelEvent hsave _ _

/-- The comment with the outcome, where its lock is free. -/
theorem calm_deliverComment (payload : CompletionPayload)
    (hcomment : permits (.gitlab (.addOrUpdatePinnedComment item.mrIid
      { status := .outcome payload.request.notificationStatus
        context := payload.request.context }))) :
    Calm settings NotificationsFree permits (deliverComment settings item payload) := by
  unfold deliverComment
  split_ifs
  · exact Calm.ret _
  · refine Calm.bind ?_ fun _ ↦ (Calm.db (hsave _)).bind fun _ ↦ Calm.ret _
    exact Calm.withLock (fun locks h entry hentry ↦ h entry hentry _ _) (hplain _ rfl)
      (hplain _ rfl) (calm_sendNotification hcomment)

end Progress

theorem calm_afterCompletion (payload : CompletionPayload) :
    Calm settings NotificationsFree (Op.completes item.queueId)
      (afterCompletion settings payload) := by
  unfold afterCompletion
  have hbroadcast : Calm settings NotificationsFree (Op.completes item.queueId)
      (broadcast settings) := calm_broadcast fun op ↦ Op.completes_of_plain
  split
  · refine Calm.bind ?_ fun _ ↦ hbroadcast
    exact (Calm.db (Op.completes_of_plain rfl)).bind fun _ ↦
      calm_retryPending fun op ↦ Op.completes_of_plain
  · exact hbroadcast

theorem calm_archive {current : QueueItem} (hcurrent : current.queueId = item.queueId)
    (payload : CompletionPayload) :
    Calm settings NotificationsFree (Op.completes item.queueId)
      (archive settings item current payload) := by
  have hsettle : Calm settings NotificationsFree (Op.completes item.queueId)
      (settleRequeue settings item payload current.requeueRequest) :=
    calm_settleRequeue (fun op ↦ Op.completes_of_plain) (fun _ ↦ rfl) payload _
  refine hsettle.bind fun payload ↦ ?_
  refine (Calm.db hcurrent).bind fun done ↦ ?_
  cases done with
  | false => exact Calm.ret _
  | true => exact calm_afterCompletion payload

end QueueCompletion

end MergeQueue
