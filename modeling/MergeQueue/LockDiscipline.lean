import MergeQueue.CompletionSteps
import MergeQueue.Lib.LockOrder
import MergeQueue.PermanentFailure
import MergeQueue.PipelineWebhook
import MergeQueue.Processor
import MergeQueue.Scheduler

/-!
# Locks and projects

The tasks of all projects run in one process and share its locks and its tables.  Each
program takes the locks in order, and asks only for what concerns its own project.
-/

namespace MergeQueue

open Interleave (LockOrder LockUse Program Terms)
open Interleave.Program (Nests)

/-! ## The locks of a process -/

/-- The locks that a task holds while it awaits, and those on the saved request of a row. -/
inductive ProcessLock
  | shared (lock : LockName)
  | intent (projectId queueId : ℕ)
  deriving DecidableEq, Repr

namespace ProcessLock

def rank : ProcessLock → ℕ
  | shared (.metadata _) | shared (.completion ..) => 0
  | shared (.admission ..) | shared (.notification ..) => 1
  | intent .. => 2

end ProcessLock

/-- The locks that a call of the queue manager takes by itself. -/
def QueueOp.locks : QueueOp → List ProcessLock
  | activatePriorities projectId => [.shared (.metadata projectId)]
  | deferRequeue projectId item .. => [.intent projectId item.queueId]
  | cancelRequeue projectId queueId .. | refreshRequeueLabels projectId queueId .. =>
      [.intent projectId queueId]
  | finalizeCompletion projectId item _ =>
      [.shared (.admission projectId item.mrIid), .intent projectId item.queueId]
  | _ => []

def Op.lockUse : Op → LockUse ProcessLock
  | acquire lock => .acquire (.shared lock)
  | release lock => .release (.shared lock)
  | db op => .inside op.locks
  | _ => .inside []

def lockOrder : LockOrder Op ProcessLock where
  use := Op.lockUse
  rank := ProcessLock.rank

/-! ## What concerns a project -/

def LockName.project : LockName → ℕ
  | completion projectId _ | notification projectId _ | admission projectId _
  | metadata projectId => projectId

/-- The project that a call of the queue manager names. -/
def QueueOp.project : QueueOp → ℕ
  | addToQueue projectId .. | removeFromQueue projectId _ | getQueueItem projectId _
  | getActiveQueue projectId | getPendingCompletions projectId | getStaleMrs projectId _
  | getMrState projectId _ | updateMrState projectId .. | markStaleWarningSent projectId _
  | clearPendingNotification projectId .. | stageCompletionPositions projectId ..
  | updateHotfixStatus projectId .. | activatePriorities projectId | deferRequeue projectId ..
  | cancelRequeue projectId .. | refreshRequeueLabels projectId .. | prepareCompletion projectId ..
  | saveCompletionProgress projectId .. | finalizeCompletion projectId .. | completeMr projectId ..
  | cleanupOldEntries projectId _ => projectId

/-- The call names the project, and so does the history row that it saves. -/
def QueueOp.Concerns (projectId : ℕ) : QueueOp → Prop
  | saveCompletionProgress project _ payload =>
      project = projectId ∧ payload.history.projectId = projectId
  | op => op.project = projectId

def Op.Concerns (projectId : ℕ) : Op → Prop
  | db op => op.Concerns projectId
  | acquire lock | release lock => lock.project = projectId
  | _ => True

theorem QueueOp.Concerns.project_eq {projectId : ℕ} {op : QueueOp} (h : op.Concerns projectId) :
    op.project = projectId := by
  cases op <;> first | exact h | exact h.1

/-- The item and its saved outcome are about a merge request of the project. -/
structure QueueItem.Of (projectId : ℕ) (item : QueueItem) : Prop where
  project : item.projectId = projectId
  history : ∀ payload, item.pendingCompletion = some payload →
    payload.history.projectId = projectId

/-- The queue hands out only items of the project. -/
def Op.Tells (projectId : ℕ) : (op : Op) → Except PyError op.Answer → Prop
  | db op, .ok answer => ∀ item ∈ op.items answer, item.Of projectId
  | _, _ => True

def Local.Of (projectId : ℕ) (s : Local) : Prop :=
  ∀ m, s.machine = some m → m.projectId = projectId

/-! ## What a task passes on -/

/-- The outcome was told and the labels are removed, as far as that is asked for. -/
structure CompletionPayload.Done (payload : CompletionPayload) : Prop where
  told : payload.commentSent = true
  cleaned : payload.request.removeLabels = true → payload.labelsRemoved = true

/-- What tasks have learnt: the items that they were given, and the comments on the merge requests
of each project that GitLab took. -/
structure Learnt where
  items : QueueItem → Prop
  comments : ℕ → ℕ → Comment → Prop

/-- The comment that tells the outcome. -/
def CompletionPayload.comment (payload : CompletionPayload) : Comment where
  status := .outcome payload.request.notificationStatus
  context := payload.request.context

/-- The record is about the project, and carries on one of an item that was given; where it says
that the comment was sent, GitLab took the comment on the merge request of such an item. -/
structure CompletionPayload.Held (projectId : ℕ) (given : Learnt) (queueId : ℕ)
    (payload : CompletionPayload) : Prop where
  project : payload.history.projectId = projectId
  carried : ∃ item saved, given.items item ∧ item.queueId = queueId ∧
    item.pendingCompletion = some saved ∧ payload.continues saved = true
  told : payload.commentSent = true → ∃ item, given.items item ∧ item.queueId = queueId ∧
    given.comments projectId item.mrIid payload.comment

/-- The record has the progress of an earlier one, up to the labels. -/
structure CompletionPayload.Follows (payload earlier : CompletionPayload) : Prop where
  continues : payload.continues earlier = true
  told : payload.commentSent = earlier.commentSent
  cleaned : earlier.labelsRemoved = true → payload.labelsRemoved = true

namespace CompletionPayload

variable {projectId queueId : ℕ} {given : Learnt}
  {payload earlier first : CompletionPayload}

theorem comment_of_continues (h : payload.continues earlier = true) :
    payload.comment = earlier.comment := by
  rw [comment, request_of_continues h]
  rfl

theorem Follows.refl (payload : CompletionPayload) : payload.Follows payload :=
  ⟨payload.continues_self, rfl, fun h ↦ h⟩

theorem Follows.trans (h : payload.Follows earlier) (h' : earlier.Follows first) :
    payload.Follows first :=
  ⟨continues_trans h.continues h'.continues, h.told.trans h'.told,
    fun hfirst ↦ h.cleaned (h'.cleaned hfirst)⟩

theorem Held.follows (h : earlier.Held projectId given queueId)
    (hfollows : payload.Follows earlier) :
    payload.Held projectId given queueId := by
  obtain ⟨hproject, ⟨item, saved, hgiven, hid, hsaved, hcontinues⟩, htold⟩ := h
  refine ⟨?_, ⟨item, saved, hgiven, hid, hsaved, continues_trans hfollows.continues hcontinues⟩, ?_⟩
  · rw [history_of_continues hfollows.continues, hproject]
  · rw [hfollows.told, comment_of_continues hfollows.continues]
    exact htold

theorem Done.follows (h : earlier.Done) (hfollows : payload.Follows earlier) : payload.Done := by
  refine ⟨hfollows.told.trans h.told, fun hremove ↦ hfollows.cleaned (h.cleaned ?_)⟩
  rwa [request_of_continues hfollows.continues] at hremove

end CompletionPayload

/-- The item is one of the project that was given, and where it says that the comment with its
outcome was sent, GitLab took it. -/
structure QueueItem.Given (projectId : ℕ) (given : Learnt) (item : QueueItem) : Prop
    extends item.Of projectId where
  learnt : given.items item
  told : ∀ payload, item.pendingCompletion = some payload → payload.commentSent = true →
    given.comments projectId item.mrIid payload.comment

theorem QueueItem.Given.held {projectId : ℕ} {given : Learnt} {item : QueueItem}
    (h : item.Given projectId given) {payload : CompletionPayload}
    (hpayload : item.pendingCompletion = some payload) :
    payload.Held projectId given item.queueId :=
  ⟨h.history payload hpayload, ⟨item, payload, h.learnt, rfl, hpayload, payload.continues_self⟩,
    fun hsent ↦ ⟨item, h.learnt, rfl, h.told payload hpayload hsent⟩⟩

/-- What a task that was given some items asks the queue for.  It passes on nothing else,
freezes outcomes as the program builds them, and archives one only when it is told. -/
def QueueOp.Proper (projectId : ℕ) (given : Learnt) : QueueOp → Prop
  | deferRequeue project item _ _ => project = projectId ∧ given.items item
  | finalizeCompletion project item payload =>
      project = projectId ∧ given.items item ∧ payload.Done
  | saveCompletionProgress project queueId payload =>
      project = projectId ∧ payload.Held projectId given queueId
  | prepareCompletion project _ request => project = projectId ∧ request.Built
  | updateMrState project _ state _ => project = projectId ∧ state.active = true
  | cleanupOldEntries .. => False
  | op => op.project = projectId

def Op.Proper (projectId : ℕ) (given : Learnt) : Op → Prop
  | db op => op.Proper projectId given
  | acquire lock | release lock => lock.project = projectId
  | _ => True

theorem QueueOp.Proper.concerns {projectId : ℕ} {given : Learnt} {op : QueueOp}
    (h : op.Proper projectId given) : op.Concerns projectId := by
  cases op with
  | saveCompletionProgress => exact ⟨h.1, h.2.project⟩
  | deferRequeue | finalizeCompletion | prepareCompletion | updateMrState => exact h.1
  | cleanupOldEntries => cases h
  | _ => exact h

theorem Op.Proper.concerns {projectId : ℕ} {given : Learnt} {op : Op}
    (h : op.Proper projectId given) : op.Concerns projectId := by
  cases op with
  | db op => exact QueueOp.Proper.concerns h
  | _ => exact h

/-- The items that a task learns with an answer. -/
def Op.items : (op : Op) → Except PyError op.Answer → List QueueItem
  | db op, .ok answer => op.items answer
  | _, _ => []

/-- GitLab took the comment on the merge request. -/
def Op.Posts (mrIid : ℕ) (body : Comment) : (op : Op) → Except PyError op.Answer → Prop
  | gitlab (.addOrUpdatePinnedComment iid comment), .ok _ => iid = mrIid ∧ comment = body
  | _, _ => False

/-- What an answer shows is learnt. -/
structure Op.Gives (projectId : ℕ) (given : Learnt) (op : Op)
    (answer : Except PyError op.Answer) : Prop where
  items : ∀ item ∈ op.items answer, item.Given projectId given
  comments : ∀ mrIid body, op.Posts mrIid body answer → given.comments projectId mrIid body

theorem Op.Tells.items {projectId : ℕ} {op : Op} {answer : Except PyError op.Answer}
    (h : op.Tells projectId answer) : ∀ item ∈ op.items answer, item.Of projectId := by
  cases op with
  | db op =>
      cases answer with
      | ok answer => exact h
      | error e => simp [Op.items]
  | _ => simp [Op.items]

theorem Op.Gives.tells {projectId : ℕ} {given : Learnt} {op : Op}
    {answer : Except PyError op.Answer} (h : op.Gives projectId given answer) :
    op.Tells projectId answer := by
  cases op with
  | db op =>
      cases answer with
      | ok answer => exact fun item hitem ↦ (h.items item hitem).toOf
      | error e => trivial
  | _ => trivial

def projectTerms (projectId : ℕ) (given : Learnt) :
    Terms Op Op.Answer Local PyError where
  permits := Op.Proper projectId given
  contract := Op.Gives projectId given
  inv := Local.Of projectId

/-- Run under locks of ranks below `k`, the program takes locks in order and keeps to its
project and to what it was given. -/
abbrev Prog.Orderly {α : Type} (settings : Settings) (given : Learnt) (k : ℕ)
    (p : Prog α) : Prop :=
  p.Nests lockOrder (projectTerms settings.gitlabProjectId given) k fun _ ↦ True

/-- As `Orderly`, with a record that has all the progress of `payload`. -/
abbrev Prog.Records (settings : Settings) (given : Learnt) (k : ℕ)
    (payload : CompletionPayload) (p : Prog CompletionPayload) : Prop :=
  p.Nests lockOrder (projectTerms settings.gitlabProjectId given) k fun out ↦ out.Follows payload

section Rules

variable {settings : Settings} {given : Learnt} {k : ℕ} {α : Type}

/-- An operation that deals with no lock. -/
theorem nests_await {op : Op} {post : op.Answer → Prop}
    (hop : op.Proper settings.gitlabProjectId given) (huse : op.lockUse = .inside [])
    (hpost : ∀ a, op.Gives settings.gitlabProjectId given (.ok a) → post a) :
    (Prog.await op).Nests lockOrder (projectTerms settings.gitlabProjectId given) k post :=
  Nests.call hop huse (fun _ h ↦ absurd h List.not_mem_nil) hpost

theorem orderly_await {op : Op} (hop : op.Proper settings.gitlabProjectId given)
    (huse : op.lockUse = .inside []) : (Prog.await op).Orderly settings given k :=
  nests_await hop huse fun _ _ ↦ trivial

theorem orderly_db {op : QueueOp} (hop : op.Proper settings.gitlabProjectId given)
    (hlocks : op.locks = []) : (Prog.db op).Orderly settings given k :=
  orderly_await hop (congrArg LockUse.inside hlocks)

theorem orderly_gitlab (call : GitLabCall) : (Prog.gitlab call).Orderly settings given k :=
  orderly_await trivial rfl

theorem orderly_now : Prog.now.Orderly settings given k := orderly_await trivial rfl

theorem orderly_getQueueItem (mrIid : ℕ) :
    (Prog.getQueueItem settings.gitlabProjectId mrIid).Orderly settings given k :=
  orderly_db rfl rfl

/-- The item that is found is one of the project. -/
theorem nests_getQueueItem (mrIid : ℕ) :
    (Prog.getQueueItem settings.gitlabProjectId mrIid).Nests lockOrder
      (projectTerms settings.gitlabProjectId given) k fun found ↦
        ∀ item, found = some item → item.Given settings.gitlabProjectId given :=
  nests_await rfl rfl fun _ hfound item hitem ↦
    hfound.items item (Option.mem_toList.mpr hitem)

theorem orderly_return {β : Type} {p : Prog α} {f : α → β} (h : p.Orderly settings given k) :
    Prog.Orderly settings given k (p >>= fun a ↦ pure (f a)) :=
  Nests.bind h fun _ _ ↦ Nests.ret trivial

theorem orderly_catching {handles : PyError → Bool} {p : Prog α} {handler : PyError → Prog α}
    (hp : p.Orderly settings given k) (hhandler : ∀ e, (handler e).Orderly settings given k) :
    (catching handles p handler).Orderly settings given k := by
  refine Nests.handle hp fun e ↦ ?_
  split_ifs
  · exact hhandler e
  · exact Nests.throw e

/-- A lock is taken around a body that takes only higher ones. -/
theorem nests_withLock {lock : LockName} {body : Prog α} {post : α → Prop}
    (hproject : lock.project = settings.gitlabProjectId)
    (hk : k ≤ (ProcessLock.shared lock).rank)
    (hbody : body.Nests lockOrder (projectTerms settings.gitlabProjectId given)
      ((ProcessLock.shared lock).rank + 1) post) :
    (Prog.withLock lock body).Nests lockOrder (projectTerms settings.gitlabProjectId given) k
      post :=
  Nests.bracket hproject rfl hk (Nat.lt_succ_self _) hbody fun _ _ hs ↦
    Nests.give_back hproject rfl hs

theorem orderly_updateMrState {projectId mrIid : ℕ} {state : Status} {extra : QueueManager.Extra}
    (hproject : projectId = settings.gitlabProjectId) (hstate : state.active = true) :
    (Prog.updateMrState projectId mrIid state extra).Orderly settings given k :=
  Nests.bind (orderly_db ⟨hproject, hstate⟩ rfl) fun _ _ ↦ Nests.update fun _ hs ↦ hs

/-- The state machine of the task is one of the project. -/
theorem orderly_machine {f : Machine → Prog α}
    (h : ∀ m : Machine, m.projectId = settings.gitlabProjectId → (f m).Orderly settings given k) :
    Prog.Orderly settings given k (Prog.machine >>= f) := by
  have hmachine : Prog.machine.Nests lockOrder (projectTerms settings.gitlabProjectId given) k
      fun m ↦ m.projectId = settings.gitlabProjectId := by
    refine Nests.bind Nests.read fun s hs ↦ ?_
    cases hm : s.machine with
    | none => exact Nests.throw _
    | some m => exact Nests.ret (hs m hm)
  exact Nests.bind hmachine h

theorem orderly_keep {m : Machine} (h : m.projectId = settings.gitlabProjectId) :
    (MRStateMachine.keep m).Orderly settings given k :=
  Nests.update fun _ _ m' hm' ↦ by
    cases hm'
    exact h

theorem orderly_takeView (status : Status) : (Prog.takeView status).Orderly settings given k :=
  Nests.update fun _ hs ↦ hs

end Rules

/-! ## Comments and positions -/

namespace MRNotifier

variable {settings : Settings} {given : Learnt} {k : ℕ}

/-- A comment that is sent is one that GitLab took. -/
theorem nests_sendNotification (mrIid : ℕ) (status : CommentStatus) (context : Context) :
    (sendNotification mrIid status context).Nests lockOrder
      (projectTerms settings.gitlabProjectId given) k fun _ ↦
        given.comments settings.gitlabProjectId mrIid { status, context } := by
  unfold sendNotification Comment.render
  cases (Comment.required status).find? fun key ↦ (context.lookup key).isNone with
  | some key => exact Nests.throw _
  | none => exact nests_await trivial rfl fun _ hposts ↦ hposts.comments mrIid _ ⟨rfl, rfl⟩

theorem orderly_sendNotification (mrIid : ℕ) (status : CommentStatus) (context : Context) :
    (sendNotification mrIid status context).Orderly settings given k :=
  (nests_sendNotification mrIid status context).mono fun _ _ ↦ trivial

theorem orderly_acknowledge (mrIid : ℕ) (pending : Option PendingNotification) :
    (acknowledge settings mrIid pending).Orderly settings given k := by
  cases pending with
  | none => exact Nests.ret trivial
  | some pending => exact orderly_db rfl rfl

theorem orderly_notifyIfQueued (hk : k ≤ 1) (mrIid : ℕ) (status : CommentStatus)
    (context : Context) (pending : Option PendingNotification) :
    (notifyIfQueued settings mrIid status context pending).Orderly settings given k := by
  refine nests_withLock rfl hk (Nests.bind (orderly_getQueueItem mrIid) fun item _ ↦ ?_)
  cases item with
  | none => exact Nests.ret trivial
  | some item =>
      simp only
      split_ifs
      · exact Nests.ret trivial
      · exact orderly_acknowledge mrIid pending
      · refine Nests.bind (orderly_db rfl rfl) fun queue _ ↦ ?_
        split
        · exact Nests.ret trivial
        · exact Nests.bind (orderly_sendNotification _ _ _) fun _ _ ↦ orderly_acknowledge _ _

theorem orderly_notify (hk : k ≤ 1) (mrIid : ℕ) (status : CommentStatus) (context : Context) :
    (notify settings mrIid status context).Orderly settings given k := by
  unfold notify
  split
  · exact orderly_notifyIfQueued hk _ _ _ _
  · exact nests_withLock rfl hk (orderly_sendNotification _ _ _)

theorem nests_notify_outcome (hk : k ≤ 1) (mrIid : ℕ) (template : Template) (context : Context) :
    (notify settings mrIid (.outcome template) context).Nests lockOrder
      (projectTerms settings.gitlabProjectId given) k fun _ ↦
        given.comments settings.gitlabProjectId mrIid { status := .outcome template, context } :=
  nests_withLock rfl hk (nests_sendNotification mrIid _ context)

theorem orderly_announce (hk : k ≤ 1) (mrIid : ℕ) (notice : Notice) :
    (announce settings mrIid notice).Orderly settings given k :=
  orderly_notify hk _ _ _

theorem orderly_buildPipelineUrl (pipelineId : ℕ) :
    (buildPipelineUrl pipelineId).Orderly settings given k :=
  orderly_return (orderly_gitlab _)

theorem orderly_completionActor : (completionActor settings).Orderly settings given k :=
  orderly_return (orderly_gitlab _)

theorem orderly_removeQueueLabel (mrIid : ℕ) (strict : Bool) (operationId : Option Uuid) :
    (removeQueueLabel settings mrIid strict operationId).Orderly settings given k := by
  refine Nests.handle ?_ fun e ↦ ?_
  · by_cases h : operationId.isNone = true
    · rw [if_pos h]
      exact orderly_return (orderly_gitlab _)
    · rw [if_neg h]
      exact orderly_return (orderly_gitlab _)
  · split_ifs
    · exact Nests.ret trivial
    · exact Nests.throw _
    · exact Nests.ret trivial

theorem orderly_restoreQueueLabels (mrIid : ℕ) (labels : List String)
    (operationId : Option Uuid) :
    (restoreQueueLabels mrIid labels operationId).Orderly settings given k :=
  orderly_return (orderly_gitlab _)

end MRNotifier

namespace QueuePositionNotifier

variable {settings : Settings} {given : Learnt} {k : ℕ}

theorem orderly_getQueueLength : (getQueueLength settings).Orderly settings given k :=
  orderly_return (orderly_db rfl rfl)

theorem orderly_capturePositionsIfEnabled :
    (capturePositionsIfEnabled settings).Orderly settings given k := by
  have hcapture : (captureQueuePositions settings).Orderly settings given k :=
    orderly_return (orderly_db rfl rfl)
  unfold capturePositionsIfEnabled
  split_ifs
  · exact Nests.bind hcapture fun _ _ ↦ orderly_return orderly_getQueueLength
  · exact Nests.ret trivial

theorem orderly_notifyInitialPosition (hk : k ≤ 1) (mrIid : ℕ) :
    (notifyInitialPosition settings mrIid).Orderly settings given k := by
  refine Nests.bind (orderly_db rfl rfl) fun queue _ ↦ ?_
  split
  · exact Nests.ret trivial
  · exact MRNotifier.orderly_notifyIfQueued hk _ _ _ _

theorem orderly_retryItem (hk : k ≤ 1) (item : QueueItem) :
    (retryItem settings item).Orderly settings given k := by
  unfold retryItem
  cases item.pendingNotification with
  | none => exact Nests.ret trivial
  | some pending =>
      refine Nests.handle (MRNotifier.orderly_notifyIfQueued hk _ _ _ _) fun e ↦ ?_
      split_ifs
      · exact Nests.ret trivial
      · exact Nests.throw _

theorem orderly_retryPending (hk : k ≤ 1) : (retryPending settings).Orderly settings given k :=
  Nests.bind (orderly_db rfl rfl) fun _ _ ↦ Nests.forEach fun item _ ↦ orderly_retryItem hk item

theorem orderly_notifyPositionChange (hk : k ≤ 1) (excludedMrIid : ℕ)
    (positionsBefore : List (ℕ × ℕ)) (oldTotal total : ℕ) (isHotfix : Bool)
    (entry : QueueItem × ℕ) :
    (notifyPositionChange settings excludedMrIid positionsBefore oldTotal total isHotfix
      entry).Orderly settings given k := by
  unfold notifyPositionChange
  simp only
  split_ifs
  · exact Nests.ret trivial
  · split
    · exact Nests.ret trivial
    · split_ifs
      · exact Nests.ret trivial
      · exact MRNotifier.orderly_notifyIfQueued hk _ _ _ _

theorem orderly_notifyAffectedMrsAfterMrAdded (hk : k ≤ 1) (addedMrIid : ℕ)
    (positionsBefore : List (ℕ × ℕ)) (oldTotal : ℕ) (isHotfix : Bool) :
    (notifyAffectedMrsAfterMrAdded settings addedMrIid positionsBefore oldTotal
      isHotfix).Orderly settings given k :=
  Nests.bind (orderly_db rfl rfl) fun _ _ ↦ Nests.forEach fun _ _ ↦
    orderly_notifyPositionChange hk _ _ _ _ _ _

theorem orderly_notifyAffectedMrsAfterCompletion (hk : k ≤ 1) (positionsBefore : List (ℕ × ℕ))
    (oldTotal : ℕ) :
    (notifyAffectedMrsAfterCompletion settings positionsBefore oldTotal).Orderly settings given k :=
  Nests.bind (orderly_db rfl rfl) fun _ _ ↦ orderly_retryPending hk

end QueuePositionNotifier

theorem orderly_broadcast {settings : Settings} {k : ℕ} :
    (broadcast settings).Orderly settings given k := by
  unfold broadcast
  split_ifs
  · exact orderly_await trivial rfl
  · exact Nests.ret trivial

/-! ## Completions -/

namespace QueueCompletion

variable {settings : Settings} {given : Learnt} {k : ℕ} {item : QueueItem}
  {payload : CompletionPayload}

theorem orderly_saveProgress (h : payload.Held settings.gitlabProjectId given item.queueId) :
    (saveProgress settings item payload).Orderly settings given k :=
  orderly_db ⟨rfl, h⟩ rfl

theorem nests_deliverComment (hk : k ≤ 1) (hitem : given.items item)
    (h : payload.Held settings.gitlabProjectId given item.queueId) :
    (deliverComment settings item payload).Nests lockOrder
      (projectTerms settings.gitlabProjectId given) k fun out ↦
        out.Held settings.gitlabProjectId given item.queueId ∧ out.commentSent = true := by
  unfold deliverComment
  split_ifs with hsent
  · exact Nests.ret ⟨h, hsent⟩
  · refine Nests.bind (MRNotifier.nests_notify_outcome hk _ _ _) fun _ htold ↦ ?_
    have hheld : { payload with commentSent := true }.Held settings.gitlabProjectId given
        item.queueId := ⟨h.project, h.carried, fun _ ↦ ⟨item, hitem, rfl, htold⟩⟩
    exact Nests.bind (orderly_saveProgress hheld) fun _ _ ↦ Nests.ret ⟨hheld, rfl⟩

theorem records_recordLabelEvent {eventAt : Option ℤ}
    (h : payload.Held settings.gitlabProjectId given item.queueId) :
    (recordLabelEvent settings item payload eventAt).Records settings given k payload := by
  have hfollows (events : List LabelEvent) :
      { payload with labelEvents := events }.Follows payload :=
    ⟨payload.continues_self, rfl, fun h ↦ h⟩
  exact Nests.bind (orderly_saveProgress (h.follows (hfollows _))) fun _ _ ↦
    Nests.ret (hfollows _)

theorem nests_labelOperation {action : LabelAction} {triggers : List String}
    (h : payload.Held settings.gitlabProjectId given item.queueId) :
    (labelOperation settings item payload action triggers).Nests lockOrder
      (projectTerms settings.gitlabProjectId given) k fun out ↦ out.2.2.Follows payload := by
  have hfollows (operations : List LabelOperation) :
      { payload with labelOperations := operations }.Follows payload :=
    ⟨payload.continues_self, rfl, fun h ↦ h⟩
  unfold labelOperation
  split
  · exact Nests.ret (.refl payload)
  · exact Nests.bind MRNotifier.orderly_completionActor fun _ _ ↦
      Nests.bind (orderly_await trivial rfl) fun _ _ ↦
        Nests.bind (orderly_saveProgress (h.follows (hfollows _))) fun _ _ ↦
          Nests.ret (hfollows _)

theorem nests_mutateLabels {action : LabelAction} {triggers : List String}
    (h : payload.Held settings.gitlabProjectId given item.queueId) :
    (mutateLabels settings item payload action triggers).Nests lockOrder
      (projectTerms settings.gitlabProjectId given) k fun out ↦ out.2.Follows payload := by
  refine Nests.bind (nests_labelOperation h) fun out hout ↦ ?_
  have hdone (operations : List LabelOperation) (events : List LabelEvent) :
      { out.2.2 with labelOperations := operations, labelEvents := events }.Follows payload :=
    CompletionPayload.Follows.trans ⟨out.2.2.continues_self, rfl, fun h ↦ h⟩ hout
  cases action with
  | remove =>
      exact Nests.bind (MRNotifier.orderly_removeQueueLabel _ _ _) fun _ _ ↦ Nests.ret (hdone _ _)
  | restore =>
      exact Nests.bind (MRNotifier.orderly_restoreQueueLabels _ _ _) fun _ _ ↦
        Nests.ret (hdone _ _)

/-- The labels are changed, and the record of it goes into the row. -/
theorem records_mutated {action : LabelAction} {triggers : List String}
    {f : CompletionPayload → CompletionPayload} (hf : ∀ payload, (f payload).Follows payload)
    (h : payload.Held settings.gitlabProjectId given item.queueId) :
    Prog.Records settings given k payload (do
      let (eventAt, payload) ← mutateLabels settings item payload action triggers
      recordLabelEvent settings item (f payload) eventAt) := by
  refine Nests.bind (nests_mutateLabels h) fun out hout ↦ ?_
  have hrecorded := (hf out.2).trans hout
  exact (records_recordLabelEvent (h.follows hrecorded)).mono fun _ hlast ↦ hlast.trans hrecorded

theorem nests_cleanup (h : payload.Held settings.gitlabProjectId given item.queueId) :
    (cleanup settings item payload).Nests lockOrder
      (projectTerms settings.gitlabProjectId given) k fun out ↦
        out.Follows payload ∧ (payload.request.removeLabels = true → out.labelsRemoved = true) := by
  unfold cleanup
  split_ifs with hremove
  · refine Nests.bind (nests_mutateLabels h) fun out hout ↦ ?_
    have hremoved : { out.2 with labelsRemoved := true }.Follows out.2 :=
      ⟨out.2.continues_self, rfl, fun _ ↦ rfl⟩
    have hrecorded := hremoved.trans hout
    exact (records_recordLabelEvent (h.follows hrecorded)).mono fun _ hlast ↦
      ⟨hlast.trans hrecorded, fun _ ↦ hlast.cleaned rfl⟩
  · refine Nests.ret ⟨.refl payload, fun hasked ↦ ?_⟩
    simpa [hasked] using hremove

theorem records_settleRequeue {request : Option Requeue}
    (h : payload.Held settings.gitlabProjectId given item.queueId) :
    (settleRequeue settings item payload request).Records settings given k payload := by
  unfold settleRequeue
  cases request with
  | none => exact Nests.ret (.refl payload)
  | some requeue =>
      simp only
      split_ifs
      · exact records_mutated (f := id) (fun payload ↦ .refl payload) h
      · split
        · exact Nests.throw _
        · exact records_mutated (f := id) (fun payload ↦ .refl payload) h

theorem orderly_afterCompletion (hk : k ≤ 1) :
    (afterCompletion settings payload).Orderly settings given k := by
  unfold afterCompletion
  split_ifs
  · exact Nests.bind (QueuePositionNotifier.orderly_notifyAffectedMrsAfterCompletion hk _ _)
      fun _ _ ↦ orderly_broadcast
  · exact orderly_broadcast

/-- The archival takes the locks on the admission and on the saved request. -/
theorem orderly_archive {current : QueueItem} (hk : k ≤ 1) (hcurrent : given.items current)
    (h : payload.Held settings.gitlabProjectId given item.queueId) (hdone : payload.Done) :
    (archive settings item current payload).Orderly settings given k := by
  refine Nests.bind (records_settleRequeue h) fun payload hfollows ↦ ?_
  have hfinalize : (Prog.db (.finalizeCompletion settings.gitlabProjectId current
      payload)).Orderly settings given k := by
    refine Nests.call ⟨rfl, hcurrent, hdone.follows hfollows⟩ rfl ?_ fun _ _ ↦ trivial
    intro lock hlock
    rcases List.mem_cons.mp hlock with rfl | hlock
    · exact hk
    · rw [List.mem_singleton.mp hlock]
      exact hk.trans (Nat.le_succ 1)
  refine Nests.bind hfinalize fun done _ ↦ ?_
  split_ifs
  · exact orderly_afterCompletion hk
  · exact Nests.ret trivial

theorem orderly_finish (hk : k ≤ 1) (hitem : item.Given settings.gitlabProjectId given) :
    (finish settings item).Orderly settings given k := by
  unfold finish
  cases hpending : item.pendingCompletion with
  | none => exact Nests.throw _
  | some payload =>
      have hheld := hitem.held hpending
      refine Nests.bind (nests_deliverComment hk hitem.learnt hheld)
        fun payload₁ ⟨hheld₁, htold⟩ ↦ ?_
      refine Nests.bind (nests_cleanup hheld₁) fun payload₂ ⟨hfollows₂, hcleaned⟩ ↦ ?_
      have hdone : payload₂.Done := by
        refine ⟨hfollows₂.told.trans htold, fun hremove ↦ hcleaned ?_⟩
        rwa [CompletionPayload.request_of_continues hfollows₂.continues] at hremove
      refine Nests.bind (nests_getQueueItem item.mrIid) fun found hfound ↦ ?_
      cases found with
      | none => exact Nests.ret trivial
      | some current =>
          simp only
          split_ifs
          · exact orderly_archive hk (hfound current rfl).learnt (hheld₁.follows hfollows₂) hdone
          · exact Nests.ret trivial

theorem nests_prepare (mrIid : ℕ) {request : CompletionRequest} (hbuilt : request.Built) :
    (Prog.db (.prepareCompletion settings.gitlabProjectId mrIid request)).Nests lockOrder
      (projectTerms settings.gitlabProjectId given) k fun found ↦
        ∀ item, found = some item → item.Given settings.gitlabProjectId given :=
  nests_await ⟨rfl, hbuilt⟩ rfl fun _ hfound item hitem ↦
    hfound.items item (Option.mem_toList.mpr hitem)

/-- The outcome is prepared under the lock on comments and finished under the one on the
completion only. -/
theorem orderly_complete {mrIid : ℕ} {request : CompletionRequest} (hbuilt : request.Built) :
    (complete settings mrIid request).Orderly settings given 0 := by
  refine nests_withLock rfl (Nat.zero_le _) ?_
  refine Nests.bind (nests_withLock rfl le_rfl (nests_prepare mrIid hbuilt))
    fun found hfound ↦ ?_
  cases found with
  | none => exact Nests.ret trivial
  | some item =>
      exact Nests.bind (orderly_takeView _) fun _ _ ↦ orderly_finish le_rfl (hfound item rfl)

theorem orderly_recover {mrIid queueId : ℕ} :
    (recover settings mrIid queueId).Orderly settings given 0 := by
  refine nests_withLock rfl (Nat.zero_le _) ?_
  refine Nests.bind (nests_getQueueItem mrIid) fun found hfound ↦ ?_
  cases found with
  | none => exact Nests.ret trivial
  | some item =>
      simp only
      split_ifs
      · exact orderly_finish le_rfl (hfound item rfl)
      · exact Nests.ret trivial

theorem orderly_recoverAll : (recoverAll settings).Orderly settings given 0 := by
  refine Nests.bind (orderly_db rfl rfl) fun pending _ ↦ ?_
  refine orderly_return (Nests.forEach fun item _ ↦ Nests.handle orderly_recover fun e ↦ ?_)
  split_ifs
  · exact Nests.ret trivial
  · exact Nests.throw _

end QueueCompletion

/-! ## Labels -/

namespace QueueMetadataUpdater

variable {settings : Settings} {given : Learnt} {k : ℕ}

theorem orderly_refreshItem (mrIid : ℕ) (labels : List String)
    (expectedRevision : Option (ℕ × ℕ)) (admissionKey : Option String) :
    (refreshItem settings mrIid labels expectedRevision admissionKey).Orderly settings given k := by
  refine Nests.bind (orderly_getQueueItem mrIid) fun found _ ↦ ?_
  cases found with
  | none => exact Nests.ret trivial
  | some item =>
      simp only
      split_ifs
      · exact Nests.ret trivial
      · exact Nests.ret trivial
      · cases classifyLabels settings labels with
        | error e => exact Nests.throw _
        | ok classes =>
            simp only
            split_ifs
            · exact Nests.ret trivial
            · exact orderly_db rfl rfl

theorem orderly_retryPending (hk : k ≤ 1) : (retryPending settings).Orderly settings given k := by
  unfold retryPending
  split_ifs
  · exact QueuePositionNotifier.orderly_retryPending hk
  · exact Nests.ret trivial

theorem orderly_refresh (mrIid : ℕ) (labels : List String) (expectedRevision : Option (ℕ × ℕ))
    (notify : Bool) (admissionKey : Option String) :
    (refresh settings mrIid labels expectedRevision notify admissionKey).Orderly settings given
      0 := by
  refine nests_withLock rfl (Nat.zero_le _) ?_
  refine Nests.bind (orderly_refreshItem _ _ _ _) fun updated _ ↦ ?_
  split_ifs
  · exact orderly_return (orderly_retryPending le_rfl)
  · exact Nests.ret trivial

end QueueMetadataUpdater

/-! ## The state machine -/

namespace MRStateMachine

variable {settings : Settings} {given : Learnt} {k : ℕ}

theorem orderly_setContext (f : MachineContext → MachineContext) :
    (setContext f).Orderly settings given k :=
  orderly_machine fun _ hm ↦ orderly_keep hm

theorem orderly_getQueuePosition (mrIid : ℕ) :
    (getQueuePosition settings.gitlabProjectId mrIid).Orderly settings given k :=
  orderly_return (orderly_db rfl rfl)

section Callbacks

variable {m : Machine} (hm : m.projectId = settings.gitlabProjectId)

include hm

theorem orderly_onEnterQueued : (onEnterQueued settings m).Orderly settings given 0 := by
  unfold onEnterQueued
  split_ifs
  · exact orderly_keep hm
  · rw [hm]
    refine Nests.bind (orderly_getQueuePosition _) fun position _ ↦ ?_
    refine Nests.bind QueuePositionNotifier.orderly_getQueueLength fun total _ ↦ ?_
    refine Nests.bind orderly_now fun queuedAt _ ↦ ?_
    exact Nests.bind (MRNotifier.orderly_announce (Nat.zero_le 1) _ _) fun _ _ ↦ orderly_broadcast

omit hm in
theorem orderly_finishCompletion {request : CompletionRequest}
    (hbuilt : ∀ positions oldTotal queueId, (request.of positions oldTotal queueId).Built) :
    (finishCompletion settings m request).Orderly settings given 0 :=
  Nests.bind QueuePositionNotifier.orderly_capturePositionsIfEnabled fun _ _ ↦
    QueueCompletion.orderly_complete (hbuilt _ _ _)

theorem orderly_onEnterMerged : (onEnterMerged settings m).Orderly settings given 0 := by
  unfold onEnterMerged
  rw [hm]
  refine Nests.bind (orderly_getQueueItem _) fun item _ ↦ ?_
  refine Nests.bind orderly_now fun mergedAt _ ↦ ?_
  exact Nests.bind orderly_now fun finish _ ↦ orderly_finishCompletion fun _ _ _ ↦ .merged ..

theorem orderly_onEnterFailed : (onEnterFailed settings m).Orderly settings given 0 := by
  have hduration : (timeoutDuration m).Orderly settings given 0 := by
    unfold timeoutDuration
    rw [hm]
    split_ifs
    · exact Nests.bind (orderly_getQueueItem _) fun _ _ ↦ orderly_return orderly_now
    · exact Nests.ret trivial
  refine Nests.bind orderly_now fun failedAt _ ↦ Nests.bind hduration fun duration _ ↦ ?_
  exact orderly_finishCompletion fun _ _ _ ↦ .failed ..

theorem orderly_onEnterRemoved : (onEnterRemoved settings m).Orderly settings given 0 := by
  have hlate (reason : RemovalReason) : Prog.Orderly settings given 0 (do
      let item ← Prog.getQueueItem settings.gitlabProjectId m.mrIid
      let at₁ ← Prog.now
      let at₂ ← Prog.now
      finishCompletion settings m
        (.removed reason m.context m.targetBranch at₁ (durationOf item at₂) 0)) := by
    refine Nests.bind (orderly_getQueueItem _) fun item _ ↦ ?_
    refine Nests.bind orderly_now fun at₁ _ ↦ ?_
    exact Nests.bind orderly_now fun at₂ _ ↦ orderly_finishCompletion fun _ _ _ ↦ .removed ..
  unfold onEnterRemoved
  rw [hm]
  refine Nests.bind orderly_now fun removedAt _ ↦ ?_
  split
  · exact hlate _
  · exact hlate _
  · exact orderly_finishCompletion fun _ _ _ ↦ .removed ..
  · exact Nests.bind (orderly_getQueuePosition _) fun _ _ ↦
      orderly_finishCompletion fun _ _ _ ↦ .removed ..
  · exact Nests.bind (orderly_getQueuePosition _) fun _ _ ↦
      orderly_finishCompletion fun _ _ _ ↦ .removed ..

theorem orderly_onEnter : (onEnter settings m).Orderly settings given 0 := by
  have hwrite {state : Status} (hstate : state.active = true) (extra : QueueManager.Extra) :
      (Prog.updateMrState m.projectId m.mrIid state extra).Orderly settings given 0 :=
    orderly_updateMrState hm hstate
  have htell (notice : Notice) : Prog.Orderly settings given 0 (do
      MRNotifier.announce settings m.mrIid notice
      broadcast settings) :=
    Nests.bind (MRNotifier.orderly_announce (Nat.zero_le 1) _ _) fun _ _ ↦ orderly_broadcast
  unfold onEnter
  split_ifs
  · exact orderly_keep hm
  · split
    · exact orderly_onEnterQueued hm
    · exact Nests.bind (hwrite rfl _) fun _ _ ↦ Nests.bind orderly_now fun _ _ ↦ htell _
    · exact Nests.bind (hwrite rfl _) fun _ _ ↦ Nests.bind orderly_now fun _ _ ↦ htell _
    · exact Nests.bind (hwrite rfl _) fun _ _ ↦ htell _
    · exact orderly_onEnterMerged hm
    · exact orderly_onEnterFailed hm
    · exact orderly_onEnterRemoved hm

end Callbacks

theorem orderly_fire (event : MachineEvent) : (fire settings event).Orderly settings given 0 := by
  refine orderly_machine fun m hm ↦ ?_
  split
  · exact Nests.throw _
  · exact Nests.bind (orderly_keep hm) fun _ _ ↦ orderly_onEnter hm

/-- The machine that is made is one of the project. -/
theorem orderly_create (mrIid : ℕ) (targetBranch : String) :
    (create settings mrIid targetBranch).Orderly settings given 0 := by
  refine Nests.bind (orderly_getQueueItem mrIid) fun item _ ↦ ?_
  cases item with
  | some item => exact Nests.bind (orderly_onEnter rfl) fun _ _ ↦ orderly_takeView _
  | none =>
      exact Nests.bind (orderly_onEnter rfl) fun _ _ ↦ Nests.bind (orderly_keep rfl) fun _ _ ↦
        orderly_takeView _

/-! ### Triggers -/

/-- A trigger that notes something and then fires. -/
theorem orderly_trigger (f : MachineContext → MachineContext) (event : MachineEvent) :
    Prog.Orderly settings given 0 (do
      setContext f
      fire settings event) :=
  Nests.bind (orderly_setContext f) fun _ _ ↦ orderly_fire event

theorem orderly_triggerResetToQueued :
    (triggerResetToQueued settings).Orderly settings given 0 := by
  refine orderly_machine fun m hm ↦ ?_
  refine Nests.bind (orderly_keep hm) fun _ _ ↦ ?_
  exact Nests.bind (orderly_fire _) fun _ _ ↦ orderly_updateMrState hm rfl

theorem orderly_triggerMarkRemoved (reason : RemovalReason) :
    (triggerMarkRemoved settings reason).Orderly settings given 0 :=
  orderly_machine fun _ hm ↦ Nests.bind (orderly_keep hm) fun _ _ ↦ orderly_fire _

theorem orderly_triggerTimeout (maxWaitHours : ℕ) :
    (triggerTimeout settings maxWaitHours).Orderly settings given 0 := by
  refine orderly_machine fun m hm ↦ Nests.bind (orderly_keep hm) fun _ _ ↦ ?_
  split
  · exact orderly_fire _
  · exact Nests.ret trivial

theorem orderly_notifyStaleWarning (warningHours : ℕ) :
    (notifyStaleWarning settings warningHours).Orderly settings given 0 := by
  refine orderly_machine fun m hm ↦ ?_
  rw [hm]
  refine Nests.bind (orderly_getQueueItem _) fun item _ ↦ ?_
  refine Nests.bind (orderly_getQueuePosition _) fun position _ ↦ ?_
  refine Nests.bind orderly_now fun queuedAt _ ↦ Nests.bind orderly_now fun finish _ ↦ ?_
  exact MRNotifier.orderly_announce (Nat.zero_le 1) _ _

theorem orderly_notifyRebaseDuringTesting (oldPipelineId : Option ℕ)
    (newPipelineId rebaseCount maxAttempts : ℕ) (expectedSha : String) :
    (notifyRebaseDuringTesting settings oldPipelineId newPipelineId rebaseCount maxAttempts
      expectedSha).Orderly settings given 0 := by
  refine orderly_machine fun m hm ↦ Nests.bind (orderly_updateMrState hm rfl) fun _ _ ↦ ?_
  refine Nests.bind (MRNotifier.orderly_buildPipelineUrl _) fun url _ ↦ ?_
  exact Nests.bind (orderly_setContext _) fun _ _ ↦
    MRNotifier.orderly_announce (Nat.zero_le 1) _ _

theorem orderly_notifyJobRetry (pipelineId : ℕ) (pipelineUrl : String) (retriedJobs : List String)
    (retriedCounts : List (String × ℕ)) (maxRetries : ℕ) :
    (notifyJobRetry settings pipelineId pipelineUrl retriedJobs retriedCounts maxRetries).Orderly
      settings given 0 :=
  orderly_machine fun _ _ ↦ MRNotifier.orderly_announce (Nat.zero_le 1) _ _

end MRStateMachine

end MergeQueue
