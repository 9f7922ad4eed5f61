import MergeQueue.Processor
import MergeQueue.HistoryLoss
import MergeQueue.Alone

/-!
# Failing a merge request for good

The last attempt on a merge request has to end in its outcome: the row leaves the
queue, one comment tells the failure and the label is removed.  The comment can be
rendered only if the call site binds every placeholder of the template.
-/

namespace MergeQueue

open Interleave (Program)
open Interleave.Program (Finishes)
open KeyedTable (Evolves)
open QueueManager QueueOp

/-! ## Every call site binds its placeholders -/

/-- A completion request that the program builds. -/
inductive CompletionRequest.Built : CompletionRequest → Prop
  | merged (mergedAt : ℤ) (duration targetBranch : String) (positions : List (ℕ × ℕ))
      (oldTotal : ℕ) (queueId : Option ℕ) :
      Built ((CompletionRequest.merged mergedAt duration targetBranch).of positions oldTotal
        queueId)
  | failed (c : MachineContext) (targetBranch : String) (failedAt : ℤ) (duration : String)
      (positions : List (ℕ × ℕ)) (oldTotal : ℕ) (queueId : Option ℕ) :
      Built ((CompletionRequest.failed c targetBranch failedAt duration).of positions oldTotal
        queueId)
  | removed (reason : RemovalReason) (c : MachineContext) (targetBranch : String)
      (removedAt : ℤ) (duration : String) (position : ℕ) (positions : List (ℕ × ℕ))
      (oldTotal : ℕ) (queueId : Option ℕ) :
      Built ((CompletionRequest.removed reason c targetBranch removedAt duration position).of
        positions oldTotal queueId)

/-- A call of `notify` or `notify_if_queued`. -/
inductive CallSite
  | announce (notice : Notice)
  | initialPosition (position total : ℕ) (queuedAt : ℤ)
  | pendingFeedback (pending : PendingNotification)
  | positionChange (changed isHotfix : Bool) (newPosition total oldPosition oldTotal : ℕ)
  deriving DecidableEq, Repr

namespace CallSite

def status : CallSite → CommentStatus
  | announce notice => notice.status
  | initialPosition .. => .waiting .queued
  | pendingFeedback pending => .waiting pending.status
  | positionChange changed isHotfix .. =>
      .waiting (QueuePositionNotifier.selectNotificationTemplate changed isHotfix)

def context : CallSite → Context
  | announce notice => notice.context
  | initialPosition position total queuedAt =>
      [("position", .number position), ("total", .number total),
        ("estimated_minutes", .number (position * 15)), ("queued_at", .time queuedAt)]
  | pendingFeedback pending =>
      [("old_position", .number pending.oldPosition),
        ("old_total", .number (pending.oldTotal.getD 0))]
  | positionChange _ _ newPosition total oldPosition oldTotal =>
      [("position", .number newPosition), ("total", .number total),
        ("old_position", .number oldPosition), ("old_total", .number oldTotal),
        ("estimated_minutes", .number (newPosition * 15)),
        ("position_change_reason",
          .text "An MR was added ahead. Priority applies to the waiting queue.")]

/-- What is rendered for the call: waiting feedback with the current place of `item`. -/
def rendered (site : CallSite) (position total : ℕ) (item : QueueItem) :
    Except PyError Comment :=
  match site.status with
  | .waiting status =>
      Comment.render (.waiting status)
        (site.context.update
          [("position", .number position), ("total", .number total),
            ("estimated_minutes", .number (position * 15)),
            ("priority", .text item.priorityText), ("queued_at", .time item.queuedAt)])
  | status => Comment.render status site.context

/-- The two places that fail a merge request without a transition. -/
def fallback : CallSite → Bool
  | announce (.permanentFailure _) => true
  | _ => false

end CallSite

theorem retryItem_eq (settings : Settings) (item : QueueItem) (pending : PendingNotification)
    (h : item.pendingNotification = some pending) :
    QueuePositionNotifier.retryItem settings item =
      tryCatch
        (MRNotifier.notifyIfQueued settings item.mrIid (CallSite.pendingFeedback pending).status
          (CallSite.pendingFeedback pending).context (some pending))
        fun e ↦ if e.isException then pure () else throw e := by
  rw [QueuePositionNotifier.retryItem, h]
  rfl

/-- The comment on a merge request can be rendered from every request that is built. -/
theorem render_of_built {request : CompletionRequest} (h : request.Built) :
    ∃ comment, Comment.render (.outcome request.notificationStatus) request.context =
      .ok comment := by
  cases h with
  | merged => exact ⟨_, rfl⟩
  | failed c =>
      obtain ⟨_, _, _, reason, _, _, _, _, _, _, _⟩ := c
      cases reason with
      | none => exact ⟨_, rfl⟩
      | some reason => cases reason <;> exact ⟨_, rfl⟩
  | removed reason => cases reason <;> exact ⟨_, rfl⟩

theorem CallSite.rendered_iff {site : CallSite}
    (hbuilt : ∀ request, site = .announce (.outcome request) → request.Built)
    (position total : ℕ) (item : QueueItem) :
    (∃ comment, site.rendered position total item = .ok comment) ↔ site.fallback = false := by
  cases site with
  | announce notice =>
      cases notice with
      | outcome request => exact ⟨fun _ ↦ rfl, fun _ ↦ render_of_built (hbuilt request rfl)⟩
      | permanentFailure message =>
          refine ⟨fun h ↦ ?_, fun h ↦ by cases h⟩
          obtain ⟨comment, hcomment⟩ := h
          have hkey : CallSite.rendered (.announce (.permanentFailure message)) position total
              item = .error (.keyError "failed_at") := rfl
          cases hkey.symm.trans hcomment
      | _ => exact ⟨fun _ ↦ rfl, fun _ ↦ ⟨_, rfl⟩⟩
  | initialPosition => exact ⟨fun _ ↦ rfl, fun _ ↦ ⟨_, rfl⟩⟩
  | pendingFeedback pending =>
      obtain ⟨_, status, _, _⟩ := pending
      cases status <;> exact ⟨fun _ ↦ rfl, fun _ ↦ ⟨_, rfl⟩⟩
  | positionChange changed isHotfix =>
      cases changed <;> cases isHotfix <;> exact ⟨fun _ ↦ rfl, fun _ ↦ ⟨_, rfl⟩⟩

/-! ## What is asked for at the end -/

/-- The comment tells that the merge request failed. -/
def Template.failure : Template → Bool
  | conflict | pipelineFailed | timeout | mergeFailed | genericFailure => true
  | merged | removedLabel | removedClosed => false

def Op.failureComment (mrIid : ℕ) : Op → Bool
  | gitlab (.addOrUpdatePinnedComment iid { status := .outcome template, .. }) =>
      iid = mrIid && template.failure
  | _ => false

def Op.removesLabel (settings : Settings) (mrIid : ℕ) : Op → Bool
  | gitlab (.removeMrLabel iid labels) | gitlab (.putLabels iid .remove labels _) =>
      iid = mrIid && labels.contains settings.queueLabel
  | _ => false

/-- The lifecycle of `row` has left the active queue, where only one that a saved request
asked for may follow it; one failure comment and the removal of the label were asked for. -/
structure CarriedThrough (settings : Settings) (row : MergeRequestRow) (log : List Op)
    (db : Database) : Prop where
  left : ∀ r ∈ db.mergeRequests.rows, r.projectId = row.projectId → r.iid = row.iid →
    r.status.active = true → r.id ≠ row.id ∧ row.requeueRequest ≠ none
  comment : log.countP (Op.failureComment row.iid) = 1
  label : log.any (Op.removesLabel settings row.iid) = true

/-- The handler counts an attempt on `row` that is the last one. -/
structure LastAttempt (settings : Settings) (mrIid : ℕ) (row : MergeRequestRow) (s : Local)
    (w : World) : Prop where
  locks : w.locks = []
  present : w.db.row settings.gitlabProjectId mrIid = some row
  open_ : row.pendingCompletion = none
  last : settings.maxProcessingAttempts ≤ row.processingAttempts + 1
  machine : ∀ m ∈ s.machine, m.mrIid = mrIid ∧ m.skipInitialEnter = false

/-- The state machine is in the middle of the lifecycle of `row`. -/
def CanFail (row : MergeRequestRow) (s : Local) : Prop :=
  ∃ m ∈ s.machine, MergeProcessor.interrupted m.current = true ∧ ∀ id ∈ m.queueId, id = row.id

/-! ### A frozen outcome ends its lifecycle -/

/-- The row kept its status and its saved request. -/
def Settled (r r' : MergeRequestRow) : Prop :=
  r'.status = r.status ∧ r'.requeueRequest = r.requeueRequest

theorem Settled.of_noted {r r' : MergeRequestRow} (h : Noted r r') : Settled r r' := by
  obtain ⟨note, ignored, rfl⟩ := h
  exact ⟨rfl, rfl⟩

theorem Settled.trans {a b c : MergeRequestRow} (hab : Settled a b) (hbc : Settled b c) :
    Settled a c :=
  ⟨hbc.1.trans hab.1, hbc.2.trans hab.2⟩

/-- The outcome of `row` is frozen. -/
structure Ending (row : MergeRequestRow) (db : Database) : Prop where
  below : row.id < db.mergeRequests.nextId
  own : ∀ r ∈ db.mergeRequests.rows, r.id = row.id → r.status = .failed ∧
    (row.requeueRequest = none → r.requeueRequest = none)
  others : ∀ r ∈ db.mergeRequests.rows, r.projectId = row.projectId → r.iid = row.iid →
    r.id = row.id ∨ row.requeueRequest ≠ none

theorem finalizeCompletion_settles {qm : QueueManager} {projectId : ℕ} {item : QueueItem}
    {payload : CompletionPayload} {now : ℤ} {tokens : ℕ → Uuid} {db db' : Database} {done : Bool}
    {row : MergeRequestRow} (hrow : Ending row db) (hid : item.queueId = row.id)
    (h : qm.finalizeCompletion projectId item payload now tokens db = .ok (done, db')) :
    Evolves Settled (fun _ ↦ row.requeueRequest ≠ none) db.mergeRequests db'.mergeRequests := by
  by_cases hrequeue : row.requeueRequest = none
  · rcases finalizeCompletion_eq_ok h with
      ⟨-, rfl⟩ | ⟨-, ⟨r, hr, -, hrid, -, hsaved⟩, db₁, hdb₁, rfl⟩
    · exact Evolves.refl fun _ ↦ ⟨rfl, rfl⟩
    · have hnone : item.requeueRequest = none :=
        hsaved.symm.trans ((hrow.own r hr (hrid.trans hid)).2 hrequeue)
      rcases hdb₁ with ⟨-, rfl⟩ | ⟨requeue, hsome, -⟩
      · have hdelete : Evolves Settled (fun _ ↦ row.requeueRequest ≠ none) db.mergeRequests
            (archived projectId item payload db).mergeRequests :=
          Evolves.deleteWhere fun _ _ ↦ ⟨rfl, rfl⟩
        exact hdelete.comp (stageCompletionPositions_evolves _ _ _ _ _)
          (fun _ _ _ hab hbc ↦ hab.trans (.of_noted (.of_feedback hbc))) (fun _ _ ha _ ↦ ha)
          fun _ hfalse ↦ hfalse.elim
      · cases hnone.symm.trans hsome
  · exact (finalizeCompletion_evolves h).mono (fun _ _ ↦ Settled.of_noted) fun _ _ ↦ hrequeue

/-- A call in the tail of a completion settles nothing anew. -/
theorem completes_settles {qm : QueueManager} {now : ℤ} {tokens : ℕ → Uuid} {op : QueueOp}
    {db db' : Database} {answer : op.Answer} {row : MergeRequestRow} (hrow : Ending row db)
    (hop : (Op.db op).completes row.id)
    (h : op.exec qm now tokens db = .ok (answer, db')) :
    Evolves Settled (fun _ ↦ row.requeueRequest ≠ none) db.mergeRequests db'.mergeRequests := by
  have hrefl : ∀ r, Settled r r := fun _ ↦ ⟨rfl, rfl⟩
  cases op with
  | getQueueItem | getActiveQueue | getPendingCompletions | getStaleMrs | getMrState =>
      cases h
      exact Evolves.refl hrefl
  | clearPendingNotification =>
      cases h
      apply Evolves.updateWhere hrefl
      · exact fun _ _ _ ↦ ⟨rfl, rfl⟩
      · exact fun _ ↦ ⟨rfl, rfl⟩
  | stageCompletionPositions =>
      cases h
      exact (stageCompletionPositions_evolves _ _ _ _ _).mono
        (fun _ _ h ↦ .of_noted (.of_feedback h)) fun _ h ↦ h.elim
  | saveCompletionProgress =>
      cases h
      apply Evolves.updateWhere hrefl
      · exact fun _ _ _ ↦ ⟨rfl, rfl⟩
      · exact fun _ ↦ ⟨rfl, rfl⟩
  | finalizeCompletion => exact finalizeCompletion_settles hrow hop h
  | _ => cases hop

theorem Ending.exec {qm : QueueManager} {thread : ℕ} {choice : Choice} {op : Op} {w w' : World}
    {answer : Except PyError op.Answer} {row : MergeRequestRow} (hrow : Ending row w.db)
    (hop : op.completes row.id) (h : World.exec qm thread choice op w = some (answer, w')) :
    Ending row w'.db := by
  rcases World.exec_db_cases h with hsame | ⟨q, a, rfl, hexec⟩
  · rw [hsame]
    exact hrow
  · have hevolves := completes_settles hrow hop hexec
    refine ⟨hrow.below.trans_le hevolves.nextId_le, fun r' hr' hid ↦ ?_,
      fun r' hr' hproject hiid ↦ ?_⟩
    · rcases hevolves.source r' hr' with ⟨r, hr, hrid, -, hstatus, hsaved⟩ | ⟨hfresh, -⟩
      · rw [hstatus, hsaved]
        exact hrow.own r hr (hrid.symm.trans hid)
      · simp only [rowId_mergeRequestRow] at hfresh
        have hbelow := hrow.below
        omega
    · rcases hevolves.source r' hr' with ⟨r, hr, hrid, hkey, -⟩ | ⟨-, hsome⟩
      · simp only [key_mergeRequestRow, Prod.mk.injEq] at hkey
        have hold := hrow.others r hr (hkey.1.symm.trans hproject) (hkey.2.symm.trans hiid)
        exact hold.imp_left fun heq ↦ hrid.trans heq
      · exact Or.inr hsome

theorem failureComment_of_plain {op : Op} (mrIid : ℕ) (h : op.plain = true) :
    op.failureComment mrIid = false := by
  unfold Op.failureComment
  split
  · cases h
  · rfl

theorem failureComment_of_completes {op : Op} {queueId : ℕ} (mrIid : ℕ)
    (h : op.completes queueId) : op.failureComment mrIid = false := by
  unfold Op.completes at h
  split at h
  · rfl
  · rfl
  · exact failureComment_of_plain mrIid h

/-- After the comment: the outcome is frozen, and one failure comment was asked for. -/
structure Told (row : MergeRequestRow) (log : List Op) (db : Database) : Prop where
  ending : Ending row db
  comment : log.countP (Op.failureComment row.iid) = 1

/-- After the cleanup, the removal of the label was asked for too. -/
structure Cleaned (settings : Settings) (row : MergeRequestRow) (log : List Op)
    (db : Database) : Prop extends Told row log db where
  label : log.any (Op.removesLabel settings row.iid) = true

theorem Told.exec {settings : Settings} {choice : Choice} {op : Op} {w w' : World}
    {answer : Except PyError op.Answer} {row : MergeRequestRow} {log : List Op}
    (h : Told row log w.db) (hop : op.completes row.id)
    (hexec : World.exec settings.qm 0 choice op w = some (answer, w')) :
    Told row (log ++ [op]) w'.db where
  ending := h.ending.exec hop hexec
  comment := by
    rw [List.countP_append, h.comment, List.countP_singleton,
      failureComment_of_completes row.iid hop]
    rfl

theorem Told.plain {op : Op} {row : MergeRequestRow} {log : List Op} {db : Database}
    (h : Told row log db) (hop : op.plain = true) : Told row (log ++ [op]) db where
  ending := h.ending
  comment := by
    rw [List.countP_append, h.comment, List.countP_singleton, failureComment_of_plain row.iid hop]
    rfl

theorem Cleaned.exec {settings : Settings} {choice : Choice} {op : Op} {w w' : World}
    {answer : Except PyError op.Answer} {row : MergeRequestRow} {log : List Op}
    (h : Cleaned settings row log w.db) (hop : op.completes row.id)
    (hexec : World.exec settings.qm 0 choice op w = some (answer, w')) :
    Cleaned settings row (log ++ [op]) w'.db where
  toTold := h.toTold.exec hop hexec
  label := by rw [List.any_append, h.label, Bool.true_or]

theorem Cleaned.release {settings : Settings} {lock : LockName} {row : MergeRequestRow}
    {log : List Op} {db : Database} (h : Cleaned settings row log db) :
    Cleaned settings row (log ++ [.release lock]) db where
  ending := h.ending
  comment := by
    rw [List.countP_append, h.comment]
    rfl
  label := by rw [List.any_append, h.label, Bool.true_or]

theorem Cleaned.carriedThrough {settings : Settings} {row : MergeRequestRow} {log : List Op}
    {db : Database} (h : Cleaned settings row log db) : CarriedThrough settings row log db where
  left r hr hproject hiid hactive := by
    have hne : r.id ≠ row.id := by
      intro hid
      rw [(h.ending.own r hr hid).1] at hactive
      cases hactive
    exact ⟨hne, (h.ending.others r hr hproject hiid).resolve_left hne⟩
  comment := h.comment
  label := h.label

/-! ### The completion of a failure -/

section Completion

variable {settings : Settings} {s : Local} {log : List Op} {w : World} {row : MergeRequestRow}
  {item : QueueItem} {payload : CompletionPayload}

/-- A program that asks for nothing but what a completion may ask for, once all is done. -/
theorem finishes_cleaned {α : Type} {p : Prog α}
    (hp : p.Calm settings NotificationsFree (Op.completes row.id))
    (hready : NotificationsFree w.locks) (h : Cleaned settings row log w.db) :
    p.Finishes (alone settings) s log w fun _ _ log' w' ↦ Cleaned settings row log' w'.db :=
  (hp (fun log w ↦ Cleaned settings row log w.db)
    (fun _ _ _ _ _ _ hop _ hexec h ↦ h.exec hop hexec) s log w hready h).mono fun _ _ _ _ h ↦ h.1

theorem finishes_saveProgress {post : Except PyError Unit → Local → List Op → World → Prop}
    (hid : item.queueId = row.id) (h : Told row log w.db)
    (hpost : ∀ w', w'.locks = w.locks →
      Told row (log ++ [.db (.saveCompletionProgress settings.gitlabProjectId item.queueId
        payload)]) w'.db →
      post (.ok ()) s (log ++ [.db (.saveCompletionProgress settings.gitlabProjectId
        item.queueId payload)]) w') :
    Finishes (alone settings) (QueueCompletion.saveProgress settings item payload) s log w
      post := by
  refine Finishes.call fun choice hfault ↦ ?_
  have hfault : choice.fault = none := hfault
  have hexec : World.exec settings.qm 0 choice
      (.db (.saveCompletionProgress settings.gitlabProjectId item.queueId payload)) w =
      some (.ok (), { w with
        db := QueueManager.saveCompletionProgress settings.gitlabProjectId item.queueId payload
          w.db }) := by
    simp only [World.exec, World.transact, hfault]
    rfl
  exact ⟨_, _, hexec, hpost _ rfl (h.exec hid hexec)⟩

/-- The comment of a first attempt is asked for once. -/
theorem finishes_deliverComment
    {post : Except PyError CompletionPayload → Local → List Op → World → Prop}
    (hid : item.queueId = row.id) (hiid : item.mrIid = row.iid)
    (hsent : payload.commentSent = false) (hbuilt : payload.request.Built)
    (hfailure : payload.request.notificationStatus.failure = true)
    (hfree : NotificationsFree w.locks) (hending : Ending row w.db)
    (hlog : log.countP (Op.failureComment row.iid) = 0)
    (hpost : ∀ log' w', w'.locks = w.locks → Told row log' w'.db →
      post (.ok { payload with commentSent := true }) s log' w') :
    Finishes (alone settings) (QueueCompletion.deliverComment settings item payload) s log w
      post := by
  obtain ⟨comment, hrender⟩ := render_of_built hbuilt
  have hcomment : comment = ⟨.outcome payload.request.notificationStatus,
      payload.request.context⟩ := by
    unfold Comment.render at hrender
    split at hrender
    · cases hrender
    · exact (Except.ok.inj hrender).symm
  have hlocks : ∀ entry ∈ w.locks,
      entry.1 ≠ .notification settings.gitlabProjectId item.mrIid :=
    fun entry hentry ↦ hfree entry hentry _ _
  simp only [QueueCompletion.deliverComment, hsent, Bool.false_eq_true, if_false,
    MRNotifier.notify, MRNotifier.sendNotification, hrender]
  refine Finishes.bind (Finishes.bind (finishes_acquire (held_eq_false hlocks) ?_))
  refine Finishes.ensuring (finishes_gitlab fun _ ↦ finishes_release ?_)
  have htold : Told row (log ++ [.acquire (.notification settings.gitlabProjectId item.mrIid)] ++
      [.gitlab (.addOrUpdatePinnedComment item.mrIid comment)] ++
      [.release (.notification settings.gitlabProjectId item.mrIid)]) w.db := by
    refine Told.plain ⟨hending, ?_⟩ rfl
    simp only [List.countP_append, List.countP_singleton, hlog, hcomment, Op.failureComment,
      hiid, hfailure, decide_true, Bool.and_self, if_true, Bool.false_eq_true, if_false]
  refine Finishes.bind (finishes_saveProgress hid htold fun w' hw' h ↦ Finishes.ret ?_)
  refine hpost _ w' (hw'.trans ?_) h
  exact filter_acquired hlocks

/-- The cleanup of a first attempt asks for the removal of the label. -/
theorem finishes_cleanup {post : Except PyError CompletionPayload → Local → List Op → World → Prop}
    (hid : item.queueId = row.id) (hiid : item.mrIid = row.iid)
    (hremove : payload.request.removeLabels = true) (hremoved : payload.labelsRemoved = false)
    (hoperations : payload.labelOperations = []) (h : Told row log w.db)
    (hpost : ∀ payload log' w', w'.locks = w.locks → Cleaned settings row log' w'.db →
      post (.ok payload) s log' w') :
    Finishes (alone settings) (QueueCompletion.cleanup settings item payload) s log w post := by
  simp only [QueueCompletion.cleanup, hremove, hremoved, Bool.not_false, Bool.and_self, if_true,
    QueueCompletion.mutateLabels, QueueCompletion.labelOperation, hoperations, List.zipIdx_nil,
    List.find?_nil]
  refine Finishes.bind (Finishes.bind (Finishes.bind (Finishes.bind ?_)))
  refine finishes_gitlab fun user ↦ Finishes.ret (Finishes.bind (finishes_uuid fun uuid ↦ ?_))
  have hasked : Told row (log ++ [.gitlab .getUser] ++ [.uuid]) w.db :=
    Told.plain (h.plain rfl) rfl
  refine Finishes.bind (finishes_saveProgress hid hasked fun w₁ hlocks₁ h₁ ↦ Finishes.ret ?_)
  refine Finishes.bind (Finishes.handle (Finishes.bind (finishes_gitlab fun mr ↦ Finishes.ret ?_)))
  refine Finishes.ret ?_
  refine Finishes.bind (finishes_saveProgress hid (h₁.plain rfl) fun w₂ hlocks₂ h₂ ↦
    Finishes.ret ?_)
  refine hpost _ _ w₂ (hlocks₂.trans hlocks₁) ⟨h₂, ?_⟩
  have hlabel : Op.removesLabel settings row.iid
      (.gitlab (.putLabels item.mrIid .remove
        (fromkeys [settings.queueLabel, settings.hotfixLabel]) (some uuid))) = true := by
    simp [Op.removesLabel, hiid, fromkeys, List.eraseDups_cons]
  rw [List.any_append, List.any_append]
  exact Bool.or_eq_true_iff.mpr (Or.inl (Bool.or_eq_true_iff.mpr (Or.inr (by simp [hlabel]))))

/-- A frozen failure is told, cleaned up and archived. -/
theorem finishes_finish (hpending : item.pendingCompletion = some payload)
    (hid : item.queueId = row.id) (hiid : item.mrIid = row.iid)
    (hsent : payload.commentSent = false) (hremoved : payload.labelsRemoved = false)
    (hoperations : payload.labelOperations = []) (hbuilt : payload.request.Built)
    (hfailure : payload.request.notificationStatus.failure = true)
    (hremove : payload.request.removeLabels = true)
    (hfree : NotificationsFree w.locks) (hending : Ending row w.db)
    (hlog : log.countP (Op.failureComment row.iid) = 0) :
    Finishes (alone settings) (QueueCompletion.finish settings item) s log w
      fun _ _ log' w' ↦ Cleaned settings row log' w'.db := by
  simp only [QueueCompletion.finish, hpending]
  refine Finishes.bind (finishes_deliverComment hid hiid hsent hbuilt hfailure hfree hending hlog
    fun log₁ w₁ hlocks₁ h₁ ↦ ?_)
  refine Finishes.bind (finishes_cleanup hid hiid hremove hremoved hoperations h₁
    fun payload₂ log₂ w₂ hlocks₂ h₂ ↦ ?_)
  refine finishes_cleaned ?_ ?_ h₂
  · rw [← hid]
    refine (Prog.Calm.db (Op.completes_of_plain rfl)).bind fun current ↦ ?_
    cases current with
    | none => exact Prog.Calm.ret _
    | some current =>
        simp only
        split_ifs with hcurrent
        · exact QueueCompletion.calm_archive hcurrent payload₂
        · exact Prog.Calm.ret _
  · rw [hlocks₂, hlocks₁]
    exact hfree

/-- Freezing a failure of an open row. -/
theorem prepareCompletion_of_open {projectId mrIid : ℕ} {request : CompletionRequest}
    {db : Database} (now : ℤ) (hrow : db.row projectId mrIid = some row)
    (hopen : row.pendingCompletion = none) (hguard : ∀ id ∈ request.queueId, id = row.id)
    (hfailed : request.state = .failed) :
    ∃ item payload db', QueueManager.prepareCompletion projectId mrIid request now db =
        .ok (some item, db') ∧
      item.queueId = row.id ∧ item.mrIid = row.iid ∧ item.pendingCompletion = some payload ∧
      payload = completionPayload (rowToQueueItem row) request now ∧ Ending row db' := by
  obtain ⟨db', hout, hnext, hrows⟩ := prepareCompletion_freezes now hrow hopen hguard
  have hmem := KeyedTable.mem_of_byKey hrow
  refine ⟨_, _, db', hout, rfl, rfl, rfl, rfl, ?_, fun r' hr' hid ↦ ?_,
    fun r' hr' hproject hiid ↦ Or.inl ?_⟩
  · rw [hnext]
    exact db.mergeRequests.below row hmem
  · obtain ⟨r, hr, rfl⟩ := List.mem_map.mp (hrows ▸ hr')
    by_cases hsame : r.id = row.id
    · obtain rfl := db.mergeRequests.eq_of_rowId_eq hr hmem hsame
      rw [if_pos rfl]
      exact ⟨hfailed, fun hnone ↦ by simp [preparedRow, completionAdmission, hnone]⟩
    · rw [if_neg hsame] at hid
      exact absurd hid hsame
  · obtain ⟨r, hr, rfl⟩ := List.mem_map.mp (hrows ▸ hr')
    by_cases hsame : r.id = row.id
    · rw [if_pos hsame]
      exact hsame
    · rw [if_neg hsame] at hproject hiid ⊢
      have hkeys : Keyed.key r = Keyed.key row := by
        simp only [key_mergeRequestRow, hproject, hiid]
      rw [db.mergeRequests.eq_of_key_eq hr hmem hkeys]

/-- A request for another row freezes nothing. -/
theorem prepareCompletion_of_other {projectId mrIid : ℕ} {request : CompletionRequest}
    {db : Database} (now : ℤ) (hrow : db.row projectId mrIid = some row)
    (hother : ∃ id ∈ request.queueId, id ≠ row.id) :
    QueueManager.prepareCompletion projectId mrIid request now db = .ok (none, db) := by
  obtain ⟨id, hid, hne⟩ := hother
  have hguard : (request.queueId.any fun id ↦ decide (row.id ≠ id)) = true :=
    (Option.any_eq_true _ _).mpr ⟨id, hid, decide_eq_true (Ne.symm hne)⟩
  simp only [QueueManager.prepareCompletion, hrow, hguard, if_true]

/-- The number of failure comments after `log`. -/
def FailureComments (mrIid n : ℕ) (log : List Op) : Prop :=
  log.countP (Op.failureComment mrIid) = n

theorem FailureComments.plain {mrIid n : ℕ} (log : List Op) (op : Op) (hop : op.plain = true)
    (h : FailureComments mrIid n log) : FailureComments mrIid n (log ++ [op]) := by
  rw [FailureComments] at h ⊢
  rw [List.countP_append, List.countP_singleton, failureComment_of_plain mrIid hop, h]
  rfl

/-- The way of a failure up to its completion. -/
theorem finishes_onEnterFailed {m : Machine} {K : List Op → Prop}
    (hK : ∀ log op, op.plain = true → K log → K (log ++ [op])) (hlog : K log)
    {post : Except PyError Unit → Local → List Op → World → Prop}
    (hskip : m.skipInitialEnter = false) (hcurrent : m.current = .failed)
    (hreason : m.context.failureReason ≠ some .timeout)
    (hpost : ∀ request log', request.Built → request.state = .failed →
      request.notificationStatus.failure = true → request.removeLabels = true →
      request.queueId = m.queueId →
      request.outcome.historyStatus = CompletionRequest.failureHistory m.context.failureReason →
      K log' →
      Finishes (alone settings) (QueueCompletion.complete settings m.mrIid request) s log' w
        post) :
    Finishes (alone settings) (MRStateMachine.onEnter settings m) s log w post := by
  simp only [MRStateMachine.onEnter, hskip, Bool.false_eq_true, if_false, hcurrent,
    MRStateMachine.onEnterFailed, MRStateMachine.timeoutDuration, hreason]
  refine Finishes.bind (finishes_now fun failedAt ↦ Finishes.bind (Finishes.ret ?_))
  refine Finishes.bind (finishes_capture hK (hK _ _ rfl hlog) fun out log' hlog' ↦ ?_)
  refine hpost _ log' (.failed ..) rfl ?_ rfl rfl rfl hlog'
  obtain ⟨_, _, _, reason, _, _, _, _, _, _, _⟩ := m.context
  cases reason with
  | none => rfl
  | some reason => cases reason <;> rfl

theorem finishes_complete {mrIid : ℕ} {request : CompletionRequest} (hlocks : w.locks = [])
    (hrow : w.db.row settings.gitlabProjectId mrIid = some row)
    (hopen : row.pendingCompletion = none) (hguard : ∀ id ∈ request.queueId, id = row.id)
    (hbuilt : request.Built) (hfailed : request.state = .failed)
    (hfailure : request.notificationStatus.failure = true) (hremove : request.removeLabels = true)
    (hlog : log.countP (Op.failureComment row.iid) = 0) :
    Finishes (alone settings) (QueueCompletion.complete settings mrIid request) s log w
      fun _ _ log' w' ↦ Cleaned settings row log' w'.db := by
  refine Finishes.bind (finishes_acquire (held_eq_false (by simp [hlocks])) ?_)
  refine Finishes.ensuring (Finishes.bind ?_)
  refine Finishes.bind (finishes_acquire (held_eq_false (by simp [hlocks])) ?_)
  refine Finishes.ensuring (finishes_db fun now tokens ↦ finishes_release ?_)
  obtain ⟨item, payload, db', hprepare, hid, hiid, hpending, rfl, hending⟩ :=
    prepareCompletion_of_open now hrow hopen hguard hfailed
  simp only [QueueOp.exec, hprepare, committed_ok]
  refine Finishes.bind (Finishes.update ?_)
  refine (finishes_finish hpending hid hiid rfl rfl rfl hbuilt hfailure hremove ?_ hending ?_).mono
    fun result s' log' w' h ↦ finishes_release ?_
  · simp [NotificationsFree, hlocks]
  · simp [List.countP_append, Op.failureComment, hlog]
  · cases result <;> exact h.release

/-- A completion of another row does nothing. -/
theorem finishes_complete_other {mrIid : ℕ} {request : CompletionRequest} (hlocks : w.locks = [])
    (hrow : w.db.row settings.gitlabProjectId mrIid = some row)
    (hother : ∃ id ∈ request.queueId, id ≠ row.id)
    (hlog : log.countP (Op.failureComment row.iid) = 0) :
    Finishes (alone settings) (QueueCompletion.complete settings mrIid request) s log w
      fun _ _ log' _ ↦ log'.countP (Op.failureComment row.iid) = 0 := by
  refine Finishes.bind (finishes_acquire (held_eq_false (by simp [hlocks])) ?_)
  refine Finishes.ensuring (Finishes.bind ?_)
  refine Finishes.bind (finishes_acquire (held_eq_false (by simp [hlocks])) ?_)
  refine Finishes.ensuring (finishes_db fun now tokens ↦ finishes_release ?_)
  simp only [QueueOp.exec, prepareCompletion_of_other now hrow hother, committed_ok]
  refine Finishes.ret (finishes_release ?_)
  simp [List.countP_append, Op.failureComment, hlog]

end Completion

/-! ### The handler of an error -/

section Handler

variable {settings : Settings} {s : Local} {log : List Op} {w : World} {row : MergeRequestRow}
  {m : Machine}

/-- A machine in the middle of its lifecycle fails with a reason other than a timeout. -/
theorem finishes_failMrPermanently {mrIid : ℕ} {message : String}
    {post : Except PyError Unit → Local → List Op → World → Prop} (hm : s.machine = some m)
    (hmiddle : MergeProcessor.interrupted m.current = true)
    (h : ∀ c : MachineContext, c.failureReason ≠ some .timeout →
      Finishes (alone settings)
        (MRStateMachine.onEnter settings { m with context := c, current := .failed })
        { s with machine := some { m with context := c, current := .failed } } log w post) :
    Finishes (alone settings) (MergeProcessor.failMrPermanently settings mrIid message) s log w
      post := by
  have htrigger : ∀ (event : MachineEvent) (f : MachineContext → MachineContext),
      MRStateMachine.transition event m.current = some .failed →
      (f m.context).failureReason ≠ some .timeout →
      Finishes (alone settings) (do
        MRStateMachine.setContext f
        MRStateMachine.fire settings event) s log w post := by
    intro event f htarget hreason
    refine Finishes.bind (finishes_setContext hm ?_)
    exact finishes_fire rfl htarget (h (f m.context) hreason)
  refine Finishes.bind (finishes_machine hm ?_)
  cases hcurrent : m.current with
  | rebasing =>
      simp only [hcurrent]
      refine htrigger .rebaseFailed _ ?_ ?_
      · rw [hcurrent]
        rfl
      · simp [MRStateMachine.conflictContext]
  | testing =>
      simp only [hcurrent]
      refine htrigger .pipelineFailed _ ?_ ?_
      · rw [hcurrent]
        rfl
      · simp
  | merging =>
      simp only [hcurrent]
      refine htrigger .mergeFailed _ ?_ ?_
      · rw [hcurrent]
        rfl
      · simp
  | queued | merged | failed | removed =>
      rw [hcurrent] at hmiddle
      cases hmiddle

/-- A failure without a transition has no comment: its template misses a key. -/
theorem finishes_failDirectly {mrIid : ℕ} {message : String} (hlocks : w.locks = [])
    (hlog : log.countP (Op.failureComment row.iid) = 0) :
    Finishes (alone settings) (MergeProcessor.failDirectly settings mrIid message) s log w
      fun _ _ log' _ ↦ log'.countP (Op.failureComment row.iid) = 0 := by
  refine Finishes.bind (finishes_db fun now tokens ↦ ?_)
  refine Finishes.bind (Finishes.bind (finishes_acquire (held_eq_false (by simp [hlocks])) ?_))
  refine Finishes.ensuring (Finishes.throw (finishes_release ?_))
  simp [List.countP_append, Op.failureComment, hlog]

theorem finishes_handleProcessingError {mrIid : ℕ} {error : PyError}
    {post : Except PyError Unit → Local → List Op → World → Prop}
    (h : LastAttempt settings mrIid row s w)
    (hfail : ∀ message, Finishes (alone settings)
      (MergeProcessor.failForGood settings mrIid message) s
      (log ++ [.db (.getQueueItem settings.gitlabProjectId mrIid)]) w post) :
    Finishes (alone settings) (MergeProcessor.handleProcessingError settings mrIid error) s log w
      post := by
  refine Finishes.bind (finishes_db fun now tokens ↦ ?_)
  have hitem : w.db.selectQueueItem settings.gitlabProjectId mrIid =
      some (rowToQueueItem row) := by
    simp only [Database.selectQueueItem, h.present, Option.map_some]
  have hpending : (rowToQueueItem row).pendingCompletion.isSome = false := by
    simp only [rowToQueueItem_pendingCompletion, h.open_, Option.isSome_none]
  have hattempts : settings.maxProcessingAttempts ≤
      (rowToQueueItem row).processingAttempts + 1 := h.last
  simp only [QueueOp.exec, hitem, hpending, Bool.false_eq_true, if_false, hattempts, if_true,
    Except.mapError, Except.map]
  exact hfail _

theorem handleProcessingError_carriesThrough {mrIid : ℕ} {error : PyError}
    (h : LastAttempt settings mrIid row s w) (hcan : CanFail row s) :
    Finishes (alone settings) (MergeProcessor.handleProcessingError settings mrIid error) s [] w
      fun _ _ log w' ↦ CarriedThrough settings row log w'.db := by
  obtain ⟨m, hm, hmiddle, hguard⟩ := hcan
  obtain ⟨rfl, hskip⟩ := h.machine m hm
  have hiid : row.iid = m.mrIid := congrArg Prod.snd (KeyedTable.key_of_byKey h.present)
  refine finishes_handleProcessingError h fun message ↦ ?_
  refine Finishes.bind (Finishes.bind (Finishes.read (Finishes.ret ?_)))
  rw [Option.mem_def.mp hm]
  refine finishes_failMrPermanently hm hmiddle fun c hreason ↦ ?_
  refine finishes_onEnterFailed (K := FailureComments row.iid 0) FailureComments.plain (by rfl)
    hskip rfl hreason fun request log' hbuilt hstate hfailure hremove hqueueId _ hlog ↦ ?_
  refine (finishes_complete h.locks h.present h.open_ ?_ hbuilt hstate hfailure hremove hlog).mono
    fun _ _ _ _ h ↦ h.carriedThrough
  rw [hqueueId]
  exact hguard

/-- In any other state the handler tells nothing. -/
theorem handleProcessingError_silent {mrIid : ℕ} {error : PyError}
    (h : LastAttempt settings mrIid row s w) (hcannot : ¬CanFail row s) :
    Finishes (alone settings) (MergeProcessor.handleProcessingError settings mrIid error) s [] w
      fun _ _ log _ ↦ log.countP (Op.failureComment row.iid) = 0 := by
  refine finishes_handleProcessingError h fun message ↦ ?_
  refine Finishes.bind (Finishes.bind (Finishes.read (Finishes.ret ?_)))
  cases hm : s.machine with
  | none => exact finishes_failDirectly h.locks rfl
  | some m =>
      obtain ⟨hiid, hskip⟩ := h.machine m hm
      cases hmiddle : MergeProcessor.interrupted m.current with
      | true =>
          have hother : ∃ id ∈ m.queueId, id ≠ row.id := by
            by_contra hall
            push Not at hall
            exact hcannot ⟨m, hm, hmiddle, hall⟩
          refine finishes_failMrPermanently hm hmiddle fun c hreason ↦ ?_
          refine finishes_onEnterFailed (K := FailureComments row.iid 0) FailureComments.plain
            (by rfl) hskip rfl hreason fun request log' _ _ _ _ hqueueId _ hlog ↦
              finishes_complete_other h.locks ?_ ?_ hlog
          · rw [hiid]
            exact h.present
          · rw [hqueueId]
            exact hother
      | false =>
          refine Finishes.bind (finishes_machine hm ?_)
          cases hcurrent : m.current with
          | rebasing | testing | merging =>
              rw [hcurrent] at hmiddle
              cases hmiddle
          | queued | merged | failed | removed =>
              simp only [hcurrent]
              exact finishes_failDirectly h.locks rfl

/-- The last attempt is carried through exactly in the middle of the row's lifecycle. -/
theorem handleProcessingError_iff {mrIid : ℕ} {error : PyError}
    (h : LastAttempt settings mrIid row s w) :
    (Finishes (alone settings) (MergeProcessor.handleProcessingError settings mrIid error) s [] w
      fun _ _ log w' ↦ CarriedThrough settings row log w'.db) ↔ CanFail row s := by
  refine ⟨fun hcarried ↦ ?_, handleProcessingError_carriesThrough h⟩
  by_contra hcannot
  obtain ⟨_, _, log, _, hthrough, hnone⟩ :=
    Interleave.Task.Finishes.exists ⟨{ gitlab := answersFor (waitingMr 7) }, rfl⟩ hcarried
      (handleProcessingError_silent h hcannot)
  have hone := hthrough.comment
  omega

end Handler

/-! ### Frozen requests -/

/-- The calls freeze only requests that the program builds. -/
def FreezesBuilt (calls : List Call) : Prop :=
  ∀ call ∈ calls, ∀ projectId mrIid request,
    call.op = .prepareCompletion projectId mrIid request → request.Built

/-- The frozen requests of the rows and of the items that were handed out are built. -/
structure QueueWorld.BuiltRequests (w : QueueWorld) : Prop where
  rows : ∀ r ∈ w.db.mergeRequests.rows, ∀ payload ∈ r.pendingCompletion, payload.request.Built
  items : ∀ item ∈ w.items, ∀ payload ∈ item.pendingCompletion, payload.request.Built

/-- Where the completion of a row comes from. -/
theorem request_of_rowChange {now : ℤ} {op : QueueOp} {r r' : MergeRequestRow}
    {payload : CompletionPayload} (h : op.RowChange now r r')
    (hpayload : payload ∈ r'.pendingCompletion) :
    payload ∈ r.pendingCompletion ∨
      (∃ projectId, op = .saveCompletionProgress projectId r.id payload) ∨
      ∃ projectId mrIid, op = .prepareCompletion projectId mrIid payload.request := by
  rcases QueueOp.pendingCompletion_of_rowChange h with
    heq | ⟨projectId, saved, hop, -, heq⟩ | ⟨projectId, mrIid, request, rfl, hnone, hsome⟩
  · exact Or.inl (heq ▸ hpayload)
  · rw [heq] at hpayload
    cases hpayload
    exact Or.inr (Or.inl ⟨projectId, hop⟩)
  · rcases h with rfl | ⟨-, -, -, -, rfl⟩
    · exact Or.inl hpayload
    · cases hpayload
      exact Or.inr (Or.inr ⟨projectId, mrIid, rfl⟩)

theorem QueueWorld.BuiltRequests.apply {w : QueueWorld} {call : Call} (h : w.BuiltRequests)
    (hpermitted : call.permitted w = true) (hbuilt : FreezesBuilt [call]) :
    (call.apply w).BuiltRequests := by
  rw [Call.apply]
  cases hexec : call.op.exec call.qm call.now call.tokens w.db with
  | error e => exact h
  | ok result =>
      obtain ⟨answer, db'⟩ := result
      have hrows : ∀ r ∈ db'.mergeRequests.rows, ∀ payload ∈ r.pendingCompletion,
          payload.request.Built := by
        intro r' hr' payload hpayload
        rcases (exec_evolves hexec).source r' hr' with ⟨r, hr, -, -, hchange⟩ | ⟨-, hnew⟩
        · rcases request_of_rowChange hchange hpayload with
            hold | ⟨projectId, hop⟩ | ⟨projectId, mrIid, hop⟩
          · exact h.rows r hr payload hold
          · simp only [Call.permitted, hop, List.any_eq_true, Bool.and_eq_true] at hpermitted
            obtain ⟨item, hitem, -, hcontinues⟩ := hpermitted
            obtain ⟨saved, hsaved, hcontinues⟩ := (Option.any_eq_true _ _).mp hcontinues
            rw [CompletionPayload.request_of_continues hcontinues]
            exact h.items item hitem saved hsaved
          · exact hbuilt call (List.mem_singleton.mpr rfl) projectId mrIid payload.request hop
        · rw [pendingCompletion_of_fresh hnew] at hpayload
          cases hpayload
      refine ⟨hrows, fun item hitem payload hpayload ↦ ?_⟩
      rcases List.mem_append.mp hitem with hold | hnew
      · exact h.items item hold payload hpayload
      · obtain ⟨r, hr, hshows⟩ := exec_items hexec hnew
        exact hrows r hr payload (hshows.pendingCompletion ▸ hpayload)

theorem QueueWorld.BuiltRequests.run {calls : List Call} {w : QueueWorld} (h : w.BuiltRequests)
    (hpermitted : Permitted calls w) (hbuilt : FreezesBuilt calls) :
    (run calls w).BuiltRequests := by
  induction calls generalizing w with
  | nil => exact h
  | cons call calls ih =>
      refine ih (h.apply hpermitted.1 fun c hc ↦ ?_) hpermitted.2 fun c hc ↦ ?_
      · exact hbuilt c (List.mem_singleton.mp hc ▸ List.mem_cons_self)
      · exact hbuilt c (List.mem_cons_of_mem call hc)

theorem builtRequests_empty : QueueWorld.empty.BuiltRequests where
  rows := by simp [QueueWorld.empty, Database.empty, KeyedTable.empty]
  items := by simp [QueueWorld.empty]

/-- Where an outcome is told, its request comes from an item that was handed out. -/
def CallSite.Stored (site : CallSite) (w : QueueWorld) : Prop :=
  ∀ request, site = .announce (.outcome request) →
    ∃ item ∈ w.items, ∃ payload ∈ item.pendingCompletion, payload.request = request

/-- The last attempt is carried through exactly in the middle of the row's lifecycle, and
every call site but the fallbacks binds what its template needs. -/
theorem carriedThrough_iff_canFail (settings : Settings) :
    (∀ mrIid row s w error, LastAttempt settings mrIid row s w →
      ((Finishes (alone settings) (MergeProcessor.handleProcessingError settings mrIid error) s []
          w fun _ _ log w' ↦ CarriedThrough settings row log w'.db) ↔ CanFail row s)) ∧
    ∀ calls, Permitted calls .empty → FreezesBuilt calls →
      ∀ site : CallSite, site.Stored (run calls .empty) → ∀ position total item,
        (∃ comment, site.rendered position total item = .ok comment) ↔ site.fallback = false := by
  refine ⟨fun mrIid row s w error h ↦ handleProcessingError_iff h,
    fun calls hpermitted hbuilt site hstored position total item ↦ ?_⟩
  refine CallSite.rendered_iff (fun request hsite ↦ ?_) position total item
  obtain ⟨stored, hitem, payload, hpayload, rfl⟩ := hstored request hsite
  exact (builtRequests_empty.run hpermitted hbuilt).items stored hitem payload hpayload

/-! ### A last attempt -/

def lastSettings : Settings where
  gitlabProjectId := 1
  maxProcessingAttempts := 1
  rounds := 1

def testingLocal : Local where
  machine := some
    { projectId := 1, mrIid := 7, targetBranch := "master", queueId := some 1, current := .testing }

theorem lastAttempt_of_machine {machine : Option Machine}
    (h : ∀ m ∈ machine, m.mrIid = 7 ∧ m.skipInitialEnter = false) :
    LastAttempt lastSettings 7 sampleRow { machine } { db := sampleDatabase } where
  locks := rfl
  present := by decide
  open_ := rfl
  last := by decide
  machine := h

theorem carriedThrough_while_testing :
    (Finishes (alone lastSettings)
      (MergeProcessor.handleProcessingError lastSettings 7 .timeoutError) testingLocal []
      { db := sampleDatabase }
      fun _ _ log w' ↦ CarriedThrough lastSettings sampleRow log w'.db) ∧
    ∃ comment, CallSite.rendered (.announce (.rebaseComplete 0)) 1 1
      (rowToQueueItem sampleRow) = .ok comment := by
  refine ⟨?_, ?_⟩
  · refine ((carriedThrough_iff_canFail lastSettings).1 7 sampleRow testingLocal _ .timeoutError
      (lastAttempt_of_machine ?_)).mpr ?_
    · rintro m ⟨⟩
      exact ⟨rfl, rfl⟩
    · exact ⟨_, rfl, rfl, fun id hid ↦ (Option.some.inj hid).symm⟩
  · refine ((carriedThrough_iff_canFail lastSettings).2 [] trivial ?_ _ ?_ 1 1 _).mpr rfl
    · exact fun call hcall ↦ by cases hcall
    · exact fun request heq ↦ by cases heq

/-- Without a state machine the row is archived, but the comment misses a key, and the
label is left in place. -/
theorem fallback_tells_nothing :
    ¬ (Finishes (alone lastSettings)
        (MergeProcessor.handleProcessingError lastSettings 7 .timeoutError) {} []
        { db := sampleDatabase }
        fun _ _ log w' ↦ CarriedThrough lastSettings sampleRow log w'.db) ∧
      CallSite.rendered (.announce (.permanentFailure "timeout")) 1 1 (rowToQueueItem sampleRow) =
        .error (.keyError "failed_at") := by
  refine ⟨fun hcarried ↦ ?_, rfl⟩
  have hlast : LastAttempt lastSettings 7 sampleRow {} { db := sampleDatabase } :=
    lastAttempt_of_machine fun m hm ↦ by cases hm
  obtain ⟨m, hm, -⟩ := (handleProcessingError_iff hlast).mp hcarried
  cases hm

end MergeQueue
