import MergeQueue.Alone
import MergeQueue.RowCells
import MergeQueue.Scheduler

/-!
# A task on a GitLab that agrees with itself

No other task runs, and GitLab answers every request from one state.  Only a comment or
a broadcast may fail.
-/

namespace MergeQueue

open Interleave (Program Stage)
open Interleave.Program (Finishes)
open QueueManager

/-! ## A GitLab that agrees with itself -/

/-- The answers to the request for a merge request and to the two listings. -/
structure Forge where
  getMr : ℕ → Option MergeRequest
  listing : String → List MergeRequest
  agrees : ∀ label, ∀ mr ∈ listing label, label ∈ mr.labels ∧
    ∃ current, getMr mr.iid = some current ∧ current.state = .opened ∧ current.labels = mr.labels
  complete : ∀ label iid current, getMr iid = some current → current.state = .opened →
    label ∈ current.labels → ∃ mr ∈ listing label, mr.iid = iid

namespace Forge

variable (forge : Forge) (settings : Settings)

/-- The merge request is opened and carries a trigger label. -/
def Triggered (iid : ℕ) : Prop :=
  ∃ current, forge.getMr iid = some current ∧ current.state = .opened ∧
    (settings.queueLabel ∈ current.labels ∨ settings.hotfixLabel ∈ current.labels)

def answers (choice : Choice) : (call : GitLabCall) → call.Answer
  | .getMr iid diverged => (forge.getMr iid).getD (choice.gitlab (.getMr iid diverged))
  | .listMrsWithLabel label => forge.listing label
  | call => choice.gitlab call

/-- A merge request that is missing has no answer, and a comment or a broadcast may fail. -/
def fault (choice : Choice) : Op → Option Fault
  | .gitlab (.getMr iid _) =>
      if (forge.getMr iid).isSome then none else some { error := .api .notFound "404" }
  | .gitlab (.addOrUpdatePinnedComment ..) | .broadcast => choice.fault
  | _ => none

end Forge

/-- A task that runs alone on a GitLab in the state `forge`. -/
def serving (settings : Settings) (forge : Forge) :
    Stage Op Op.Answer PyError World Choice where
  exec choice op w := World.exec settings.qm 0
    { choice with gitlab := forge.answers choice, fault := forge.fault choice op } op w
  fair choice := ∀ f ∈ choice.fault, f.error.isException = true

/-! ## Operations on a GitLab that agrees with itself -/

section Operations

variable {settings : Settings} {forge : Forge} {s : Local} {log : List Op} {w : World}

theorem serves_db {op : QueueOp} {post : Except PyError op.Answer → Local → List Op → World → Prop}
    (h : ∀ now tokens, post
      ((op.exec settings.qm now tokens w.db).mapError PyError.queue |>.map Prod.fst) s
      (log ++ [.db op]) { w with db := committed w.db (op.exec settings.qm now tokens w.db) }) :
    Finishes (serving settings forge) (Prog.db op) s log w post :=
  Finishes.call fun choice _ ↦ ⟨_, _, rfl, h choice.now choice.tokens⟩

theorem serves_getQueueItem {projectId mrIid : ℕ}
    {post : Except PyError (Option QueueItem) → Local → List Op → World → Prop}
    (h : post (.ok (w.db.selectQueueItem projectId mrIid)) s
      (log ++ [.db (.getQueueItem projectId mrIid)]) w) :
    Finishes (serving settings forge) (Prog.getQueueItem projectId mrIid) s log w post :=
  serves_db fun _ _ ↦ h

theorem serves_getActiveQueue {projectId : ℕ}
    {post : Except PyError (List QueueItem) → Local → List Op → World → Prop}
    (h : post (.ok (getActiveQueue projectId w.db)) s
      (log ++ [.db (.getActiveQueue projectId)]) w) :
    Finishes (serving settings forge) (Prog.db (.getActiveQueue projectId)) s log w post :=
  serves_db fun _ _ ↦ h

theorem serves_acquire {lock : LockName}
    {post : Except PyError Unit → Local → List Op → World → Prop} (hfree : w.held lock = false)
    (h : post (.ok ()) s (log ++ [.acquire lock]) { w with locks := (lock, 0) :: w.locks }) :
    Finishes (serving settings forge) (Prog.await (.acquire lock)) s log w post := by
  refine Finishes.call fun choice _ ↦ ⟨_, _, ?_, h⟩
  simp only [serving, Forge.fault, World.exec, hfree, Bool.false_eq_true, if_false]

theorem serves_release {lock : LockName}
    {post : Except PyError Unit → Local → List Op → World → Prop}
    (h : post (.ok ()) s (log ++ [.release lock])
      { w with locks := w.locks.filter (· ≠ (lock, 0)) }) :
    Finishes (serving settings forge) (Prog.await (.release lock)) s log w post :=
  Finishes.call fun _ _ ↦ ⟨_, _, rfl, h⟩

theorem serves_listing {label : String}
    {post : Except PyError (List MergeRequest) → Local → List Op → World → Prop}
    (h : ∀ w', w'.db = w.db → w'.locks = w.locks → post (.ok (forge.listing label)) s
      (log ++ [.gitlab (.listMrsWithLabel label)]) w') :
    Finishes (serving settings forge) (Prog.gitlab (.listMrsWithLabel label)) s log w post :=
  Finishes.call fun _ _ ↦ ⟨_, _, rfl, h _ rfl rfl⟩

/-- A merge request is reported, or it is missing. -/
theorem serves_getMr {mrIid : ℕ} {diverged : Bool}
    {post : Except PyError MergeRequest → Local → List Op → World → Prop}
    (h : ∀ w', w'.db = w.db → w'.locks = w.locks →
      post (match forge.getMr mrIid with
        | some current => .ok current
        | none => .error (.api .notFound "404")) s
        (log ++ [.gitlab (.getMr mrIid diverged)]) w') :
    Finishes (serving settings forge) (Prog.gitlab (.getMr mrIid diverged)) s log w post := by
  refine Finishes.call fun choice _ ↦ ?_
  cases hmr : forge.getMr mrIid with
  | none =>
      rw [hmr] at h
      refine ⟨_, _, ?_, h w rfl rfl⟩
      simp only [serving, Forge.fault, hmr, Option.isSome_none, Bool.false_eq_true, if_false,
        World.exec]
  | some current =>
      rw [hmr] at h
      refine ⟨_, _, ?_, h { w with reports := w.reports ++ [] } rfl rfl⟩
      simp only [serving, Forge.fault, hmr, Option.isSome_some, if_true, World.exec,
        Forge.answers, Option.getD_some]
      rfl

end Operations

/-- Where the locks are `ready`, the program comes to an end, changes no cell and raises
only what `raises` allows. -/
def Prog.Quiet {α : Type} (settings : Settings) (forge : Forge)
    (ready : List (LockName × ℕ) → Prop) (raises : PyError → Prop) (p : Prog α) : Prop :=
  ∀ s log w, ready w.locks → p.Finishes (serving settings forge) s log w fun result _ _ w' ↦
    (∀ e, result = .error e → raises e) ∧ w'.locks = w.locks ∧
      w'.cell settings = w.cell settings

namespace Prog.Quiet

variable {settings : Settings} {forge : Forge} {ready : List (LockName × ℕ) → Prop}
  {raises : PyError → Prop} {α β : Type} {p : Prog α}

theorem ret (a : α) : Quiet settings forge ready raises (Pure.pure a : Prog α) :=
  fun _ _ _ _ ↦ Finishes.ret ⟨fun _ h ↦ (by cases h), rfl, rfl⟩

theorem throw {e : PyError} (he : raises e) :
    Quiet settings forge ready raises (MonadExcept.throw e : Prog α) := by
  refine fun _ _ _ _ ↦ Finishes.throw ⟨fun e' h ↦ ?_, rfl, rfl⟩
  cases h
  exact he

theorem bind {f : α → Prog β} (h : p.Quiet settings forge ready raises)
    (hf : ∀ a, (f a).Quiet settings forge ready raises) :
    Quiet settings forge ready raises (p >>= f) := by
  intro s log w hready
  refine Finishes.bind ((h s log w hready).mono fun result s' log' w' hr ↦ ?_)
  obtain ⟨herror, hlocks, hcell⟩ := hr
  cases result with
  | error e => exact ⟨fun e' h ↦ (by cases h; exact herror e rfl), hlocks, hcell⟩
  | ok a =>
      refine (hf a s' log' w' (hlocks ▸ hready)).mono fun _ _ _ _ hr ↦ ?_
      exact ⟨hr.1, hr.2.1.trans hlocks, hr.2.2.trans hcell⟩

/-- What the program raises is caught. -/
theorem caught {p : Prog Unit}
    (h : p.Quiet settings forge ready fun e ↦ e.isException = true) :
    Quiet settings forge ready raises
      (tryCatch p fun e ↦ if e.isException then Pure.pure () else MonadExcept.throw e) := by
  intro s log w hready
  refine Finishes.handle ((h s log w hready).mono fun result s' log' w' hr ↦ ?_)
  obtain ⟨herror, hlocks, hcell⟩ := hr
  cases result with
  | ok a => exact ⟨fun _ h ↦ (by cases h), hlocks, hcell⟩
  | error e =>
      simp only [herror e rfl, if_true]
      exact Finishes.ret ⟨fun _ h ↦ (by cases h), hlocks, hcell⟩

theorem db {op : QueueOp} (hcommits : ∀ now tokens w, ∃ a db',
    op.exec settings.qm now tokens w = .ok (a, db') ∧
      db'.cell settings.gitlabProjectId = w.cell settings.gitlabProjectId) :
    (Prog.db op).Quiet settings forge ready raises := by
  intro s log w _
  refine serves_db fun now tokens ↦ ?_
  obtain ⟨a, db', hexec, hcell⟩ := hcommits now tokens w.db
  rw [hexec, committed_ok]
  exact ⟨fun _ h ↦ (by cases h), rfl, hcell⟩

theorem read {op : QueueOp} (hreads : ∀ now tokens w, ∃ a,
    op.exec settings.qm now tokens w = .ok (a, w)) :
    (Prog.db op).Quiet settings forge ready raises :=
  db fun now tokens w ↦ (hreads now tokens w).imp fun _ h ↦ ⟨w, h, rfl⟩

/-- A comment or a broadcast happens or fails. -/
theorem await {op : Op} (hraises : ∀ e, e.isException = true → raises e) (hop : op = .broadcast ∨
    ∃ iid body, op = .gitlab (.addOrUpdatePinnedComment iid body)) :
    (Prog.await op).Quiet settings forge ready raises := by
  intro s log w _
  refine Finishes.call fun choice hfair ↦ ?_
  rcases hop with rfl | ⟨iid, body, rfl⟩
  all_goals
    cases hfault : choice.fault with
    | none =>
        refine ⟨_, _, by simp only [serving, Forge.fault, World.exec, hfault]; rfl, ?_⟩
        exact ⟨fun _ h ↦ (by cases h), rfl, rfl⟩
    | some fault =>
        refine ⟨_, _, by simp only [serving, Forge.fault, World.exec, hfault]; rfl, ?_⟩
        exact ⟨fun _ h ↦ (by cases h; exact hraises _ (hfair fault hfault)), rfl, rfl⟩

theorem forEach {body : β → Prog Unit} {bs : List β}
    (h : ∀ b ∈ bs, (body b).Quiet settings forge ready raises) :
    Quiet settings forge ready raises (Program.forEach body bs) := by
  induction bs with
  | nil => exact ret ()
  | cons b bs ih =>
      rw [List.forall_mem_cons] at h
      exact h.1.bind fun _ ↦ ih h.2

theorem withLock {lock : LockName} {body : Prog α}
    (h : Quiet settings forge (fun locks ↦ locks = [(lock, 0)]) raises body) :
    Quiet settings forge (fun locks ↦ locks = []) raises (Prog.withLock lock body) := by
  intro s log w hlocks
  refine Finishes.bind (serves_acquire (held_eq_false (by simp [hlocks])) ?_)
  refine Finishes.ensuring ((h s _ _ (by simp [hlocks])).mono fun result s' log' w' hr ↦ ?_)
  obtain ⟨herror, hheld, hcell⟩ := hr
  refine serves_release ?_
  have hfree : w'.locks.filter (· ≠ (lock, 0)) = w.locks := by simp [hheld, hlocks]
  cases result with
  | ok a => exact ⟨fun _ h ↦ (by cases h), hfree, hcell⟩
  | error e => exact ⟨fun e' h ↦ (by cases h; exact herror e rfl), hfree, hcell⟩

end Prog.Quiet

section Feedback

variable {settings : Settings} {forge : Forge} {ready : List (LockName × ℕ) → Prop}
  {raises : PyError → Prop}

theorem quiet_acknowledge (mrIid : ℕ) (pending : Option PendingNotification) :
    (MRNotifier.acknowledge settings mrIid pending).Quiet settings forge ready raises := by
  cases pending with
  | none => exact Prog.Quiet.ret _
  | some pending =>
      refine Prog.Quiet.db fun now tokens db ↦ ⟨_, _, rfl, ?_⟩
      funext iid
      exact cell_clearPendingNotification mrIid pending

theorem quiet_sendNotification (mrIid : ℕ) (status : CommentStatus) (context : Context) :
    (MRNotifier.sendNotification mrIid status context).Quiet settings forge ready
      fun e ↦ e.isException = true := by
  unfold MRNotifier.sendNotification Comment.render
  cases (Comment.required status).find? fun key ↦ (context.lookup key).isNone with
  | some key => exact Prog.Quiet.throw rfl
  | none => exact Prog.Quiet.await (fun _ h ↦ h) (Or.inr ⟨_, _, rfl⟩)

theorem quiet_notifyIfQueued (mrIid : ℕ) (status : NotificationStatus) (context : Context)
    (pending : Option PendingNotification) :
    (MRNotifier.notifyIfQueued settings mrIid (.waiting status) context pending).Quiet settings
      forge (fun locks ↦ locks = []) fun e ↦ e.isException = true := by
  refine Prog.Quiet.withLock ((Prog.Quiet.read fun _ _ _ ↦ ⟨_, rfl⟩).bind fun item ↦ ?_)
  cases item with
  | none => exact Prog.Quiet.ret _
  | some item =>
      simp only
      split_ifs
      · exact Prog.Quiet.ret _
      · exact quiet_acknowledge mrIid pending
      · refine (Prog.Quiet.read fun _ _ _ ↦ ⟨_, rfl⟩).bind fun queue ↦ ?_
        split
        · exact Prog.Quiet.ret _
        · exact (quiet_sendNotification _ _ _).bind fun _ ↦ quiet_acknowledge mrIid pending

theorem quiet_retryPending :
    (QueueMetadataUpdater.retryPending settings).Quiet settings forge (fun locks ↦ locks = [])
      fun _ ↦ False := by
  unfold QueueMetadataUpdater.retryPending
  split_ifs
  · refine (Prog.Quiet.read fun _ _ _ ↦ ⟨_, rfl⟩).bind fun queue ↦
      Prog.Quiet.forEach fun item _ ↦ ?_
    unfold QueuePositionNotifier.retryItem
    cases item.pendingNotification with
    | none => exact Prog.Quiet.ret _
    | some pending => exact (quiet_notifyIfQueued _ _ _ _).caught
  · exact Prog.Quiet.ret _

theorem quiet_broadcastQueueUpdate :
    (QueueScheduler.broadcastQueueUpdate settings).Quiet settings forge ready fun _ ↦ False := by
  unfold QueueScheduler.broadcastQueueUpdate
  split_ifs
  · refine Prog.Quiet.caught ((Prog.Quiet.read fun _ _ _ ↦ ⟨_, rfl⟩).bind fun _ ↦ ?_)
    exact Prog.Quiet.await (fun _ h ↦ h) (Or.inl rfl)
  · exact Prog.Quiet.ret _

end Feedback

end MergeQueue
