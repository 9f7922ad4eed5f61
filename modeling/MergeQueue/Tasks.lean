import MergeQueue.GitLabClient
import MergeQueue.QueueOps
import MergeQueue.Lib.RelyGuarantee

/-!
# The tasks of the program and the world they share

The program runs as tasks of one event loop.  A task gives way where it awaits: a
transaction of the queue manager, a call of the GitLab client, a lock, a sleep.
What GitLab answers, how time passes and which awaits fail is chosen freely.
-/

namespace MergeQueue

open Interleave (Program Task System)

/-! ## Exceptions -/

inductive PyError
  | gitlab (error : GitLabError)
  | queue (error : QueueError)
  | transitionNotAllowed
  | rebaseRetryLimitExceeded (message : String)
  | timeoutError
  | runtimeError (message : String)
  | keyError (key : String)
  | attributeError (name : String)
  | other (message : String)
  | cancelled
  deriving DecidableEq, Repr

namespace PyError

/-- A `GitLabAPIError` without a status, of the class that `kind` names. -/
def api (kind : ErrorKind) (message : String) : PyError := .gitlab { kind, message }

def isGitLab : PyError → Bool
  | gitlab _ => true
  | _ => false

/-- The exception is an instance of the subclass of `GitLabAPIError`. -/
def isKind (kind : ErrorKind) : PyError → Bool
  | gitlab error => error.kind = kind
  | _ => false

/-- `except Exception` does not catch a cancellation. -/
def isException : PyError → Bool
  | cancelled => false
  | _ => true

/-- `str(error)`. -/
def text : PyError → String
  | gitlab error =>
      match error.statusCode with
      | some code => s!"{error.message} (status: {code})"
      | none => error.message
  | queue (.itemNotFound mrIid) => s!"Queue item not found: MR !{mrIid}"
  | queue (.valueError message) | queue (.keyError message)
  | queue (.queueError message) => message
  | queue .reread | timeoutError | cancelled => ""
  | transitionNotAllowed => "Transition not allowed"
  | rebaseRetryLimitExceeded message | runtimeError message | keyError message
  | attributeError message | other message => message

end PyError

/-! ## Operations -/

/-- A comment that describes the state of a merge request. -/
inductive CommentStatus
  | outcome (template : Template)
  | waiting (status : NotificationStatus)
  | rebasing
  | rebaseComplete
  | testing
  | jobRetry
  | rebaseDuringTesting
  | merging
  | staleWarning
  deriving DecidableEq, Repr

/-- The bot's comment, as the template and what it is rendered with. -/
structure Comment where
  status : CommentStatus
  context : Context
  deriving DecidableEq, Repr

structure User where
  id : ℕ
  bot : Bool
  deriving DecidableEq, Repr

/-- A call of the GitLab client. -/
inductive GitLabCall
  | getMr (iid : ℕ) (includeDivergedCommitsCount : Bool)
  | listMrsWithLabel (label : String)
  | rebaseMr (iid : ℕ)
  | checkRebaseStatus (iid : ℕ)
  | getMrConflicts (iid : ℕ)
  | mergeMr (iid : ℕ) (expectedSha : Option String)
  | getMrPipelines (iid : ℕ)
  | getLatestMrPipeline (iid : ℕ)
  | getPipelineStatus (pipelineId : ℕ)
  | getPipelineJobs (pipelineId : ℕ)
  | retryPipelineJob (jobId : ℕ)
  | createPipeline (ref : String)
  | retryPipeline (pipelineId : ℕ)
  | cancelPipeline (pipelineId : ℕ)
  | addOrUpdatePinnedComment (iid : ℕ) (body : Comment)
  | removeMrLabel (iid : ℕ) (labels : List String)
  | putLabels (iid : ℕ) (action : LabelAction) (labels : List String) (operationId : Option Uuid)
  | getUser
  | getProjectWebUrl
  deriving DecidableEq, Repr

namespace GitLabCall

abbrev Answer : GitLabCall → Type
  | getMr .. | mergeMr .. | removeMrLabel .. | putLabels .. => MergeRequest
  | listMrsWithLabel _ => List MergeRequest
  | rebaseMr _ => Bool
  | checkRebaseStatus _ => Bool × Bool × Option String
  | getMrConflicts _ => List String
  | getMrPipelines _ => List Pipeline
  | getLatestMrPipeline _ => Option Pipeline
  | getPipelineStatus _ | createPipeline _ | retryPipeline _ | cancelPipeline _ => Pipeline
  | getPipelineJobs _ => List Job
  | retryPipelineJob _ => Job
  | addOrUpdatePinnedComment .. => Unit
  | getUser => User
  | getProjectWebUrl => String

/-- The pipelines that the answer to a poll reports. -/
def reports : (call : GitLabCall) → call.Answer → List Pipeline
  | getMrPipelines _, pipelines => pipelines
  | getLatestMrPipeline _, pipeline => Option.toList pipeline
  | getPipelineStatus _, pipeline => [pipeline]
  | _, _ => []

end GitLabCall

/-- The locks that the tasks of one process share. -/
inductive LockName
  | completion (projectId mrIid : ℕ)
  | notification (projectId mrIid : ℕ)
  | admission (projectId mrIid : ℕ)
  | metadata (projectId : ℕ)
  deriving DecidableEq, Repr

/-- What the program sleeps for: the next iteration of its loop or the next poll. -/
inductive Pause
  | iteration (seconds : ℤ)
  | poll (seconds : ℕ)
  deriving DecidableEq, Repr

inductive Op
  | db (op : QueueOp)
  | gitlab (call : GitLabCall)
  | acquire (lock : LockName)
  | release (lock : LockName)
  | now
  | uuid
  | shutdownRequested
  | sleep (pause : Pause)
  | broadcast
  deriving DecidableEq

abbrev Op.Answer : Op → Type
  | db op => op.Answer
  | gitlab call => call.Answer
  | now => ℤ
  | uuid => Uuid
  | shutdownRequested | sleep _ => Bool
  | acquire _ | release _ | broadcast => Unit

/-! ## What a task keeps for itself -/

inductive FailureReason
  | conflict
  | pipelineFailed
  | timeout
  | mergeFailed
  deriving DecidableEq, Repr

inductive RemovalReason
  | labelRemoved
  | closed
  | externalMerge
  | timeout
  | notFound
  deriving DecidableEq, Repr

def RemovalReason.text : RemovalReason → String
  | labelRemoved => "label_removed"
  | closed => "closed"
  | externalMerge => "external_merge"
  | timeout => "timeout"
  | notFound => "not_found"

/-- The `_context` of a state machine. -/
structure MachineContext where
  pipelineId : Option ℕ := none
  pipelineUrl : Option String := none
  expectedSha : Option String := none
  failureReason : Option FailureReason := none
  conflictedFiles : List String := []
  errorMessage : Option String := none
  failedJobs : Option (List String) := none
  retriedJobs : List (String × ℕ) := []
  maxWaitHours : Option ℕ := none
  removalReason : Option RemovalReason := none
  previousState : Option Status := none
  deriving DecidableEq, Repr

/-- An `MRStateMachine` without the services it was given. -/
structure Machine where
  projectId : ℕ
  mrIid : ℕ
  targetBranch : String
  queueId : Option ℕ := none
  current : Status := .queued
  context : MachineContext := {}
  skipInitialEnter : Bool := false
  suppressQueuedNotification : Bool := false
  deriving DecidableEq, Repr

/-- The objects of a task that outlive an exception.  `view` is not part of the
program: it is the status that the task takes the row to have, from what it
read, from its state machine and from its own writes. -/
structure Local where
  machine : Option Machine := none
  currentMrIid : Option ℕ := none
  view : Status := .queued
  deriving DecidableEq, Repr

/-! ## The world -/

/-- The settings of a project, with the services that are present, and the number
of rounds for which a run follows each loop of the program. -/
structure Settings where
  qm : QueueManager := {}
  gitlabProjectId : ℕ
  queueLabel : String := "merge_queue"
  hotfixLabel : String := "hotfix"
  targetBranch : String := "master"
  pipelineTimeoutSeconds : ℕ := 7200
  rebaseTimeoutSeconds : ℕ := 300
  postRebasePipelineWaitSeconds : ℕ := 90
  mergeTimeoutSeconds : ℕ := 90
  rebaseCheckIntervalSeconds : ℕ := 30
  pollIntervalSeconds : ℕ := 30
  pipelinePollIntervalSeconds : ℕ := 5
  staleMrWarningHours : ℕ := 24
  jobRetryCount : ℕ := 1
  maxProcessingAttempts : ℕ := 5
  maxRebaseDuringTesting : ℕ := 3
  positionNotifier : Bool := true
  websocketManager : Bool := true
  rounds : ℕ

structure World where
  db : Database
  locks : List (LockName × ℕ) := []
  reports : List Pipeline := []

/-- What happens at an await.  A failure comes before the operation or, where
`applied` holds, after it. -/
structure Fault where
  error : PyError
  applied : Bool := false

structure Choice where
  now : ℤ := 0
  tokens : ℕ → Uuid := fun i ↦ i
  flag : Bool := false
  gitlab : (call : GitLabCall) → call.Answer
  fault : Option Fault := none

/-- A GitLab that answers every call about the merge request `mr`. -/
def answersFor (mr : MergeRequest) : (call : GitLabCall) → call.Answer
  | .getMr .. | .mergeMr .. | .removeMrLabel .. | .putLabels .. => mr
  | .listMrsWithLabel _ => [mr]
  | .rebaseMr _ => true
  | .checkRebaseStatus _ => (false, false, none)
  | .getMrConflicts _ => []
  | .getMrPipelines _ => []
  | .getLatestMrPipeline _ => none
  | .getPipelineStatus id | .retryPipeline id | .cancelPipeline id =>
      { id, status := .running, sha := mr.sha, ref := mr.sourceBranch }
  | .createPipeline ref => { id := 1, status := .pending, sha := mr.sha, ref }
  | .getPipelineJobs _ => []
  | .retryPipelineJob id => { id, name := "test", status := .pending, stage := "test" }
  | .addOrUpdatePinnedComment .. => ()
  | .getUser => { id := 1, bot := true }
  | .getProjectWebUrl => ""

namespace World

def held (w : World) (lock : LockName) : Bool := w.locks.any fun entry ↦ entry.1 = lock

/-- The outcome of a transaction. -/
def transact {α : Type} (w : World) (fault : Option Fault)
    (outcome : Except QueueError (α × Database)) : Except PyError α × World :=
  match fault with
  | none =>
      (outcome.mapError PyError.queue |>.map Prod.fst, { w with db := committed w.db outcome })
  | some { error, applied } =>
      (.error error, if applied then { w with db := committed w.db outcome } else w)

/-- What an awaited operation of the task number `thread` does. -/
def exec (qm : QueueManager) (thread : ℕ) (choice : Choice) :
    (op : Op) → World → Option (Except PyError op.Answer × World)
  | .db op, w => some (w.transact choice.fault (op.exec qm choice.now choice.tokens w.db))
  | .gitlab call, w =>
      match choice.fault with
      | some { error, .. } => some (.error error, w)
      | none =>
          let answer := choice.gitlab call
          some (.ok answer, { w with reports := w.reports ++ call.reports answer })
  | .acquire lock, w =>
      match choice.fault with
      | some { error, .. } => some (.error error, w)
      | none =>
          if w.held lock then none
          else some (.ok (), { w with locks := (lock, thread) :: w.locks })
  | .release lock, w => some (.ok (), { w with locks := w.locks.filter (· ≠ (lock, thread)) })
  | .now, w => some (.ok choice.now, w)
  | .uuid, w => some (.ok (choice.tokens 0), w)
  | .shutdownRequested, w => some (.ok choice.flag, w)
  | .sleep _, w =>
      match choice.fault with
      | some { error, .. } => some (.error error, w)
      | none => some (.ok choice.flag, w)
  | .broadcast, w =>
      match choice.fault with
      | some { error, .. } => some (.error error, w)
      | none => some (.ok (), w)

/-! ### What an operation changes -/

variable {qm : QueueManager} {thread : ℕ} {choice : Choice} {w w' : World}

/-- A transaction happened as a whole or not at all, whatever its caller learns. -/
theorem exec_db {op : QueueOp} {answer : Except PyError op.Answer}
    (h : exec qm thread choice (.db op) w = some (answer, w')) :
    w'.locks = w.locks ∧ w'.reports = w.reports ∧
      ((w'.db = w.db ∧ ∃ e, answer = .error e) ∨
        ∃ a, op.exec qm choice.now choice.tokens w.db = .ok (a, w'.db) ∧
          (answer = .ok a ∨ ∃ e, answer = .error e)) := by
  simp only [exec, transact, Option.some.injEq] at h
  cases hfault : choice.fault with
  | none =>
      rw [hfault] at h
      cases houtcome : op.exec qm choice.now choice.tokens w.db with
      | error e =>
          rw [houtcome] at h
          cases h
          exact ⟨rfl, rfl, Or.inl ⟨rfl, _, rfl⟩⟩
      | ok out =>
          rw [houtcome] at h
          cases h
          exact ⟨rfl, rfl, Or.inr ⟨out.1, rfl, Or.inl rfl⟩⟩
  | some fault =>
      obtain ⟨error, applied⟩ := fault
      rw [hfault] at h
      cases applied with
      | false =>
          cases h
          exact ⟨rfl, rfl, Or.inl ⟨rfl, _, rfl⟩⟩
      | true =>
          cases houtcome : op.exec qm choice.now choice.tokens w.db with
          | error e =>
              rw [houtcome] at h
              cases h
              exact ⟨rfl, rfl, Or.inl ⟨rfl, _, rfl⟩⟩
          | ok out =>
              rw [houtcome] at h
              cases h
              exact ⟨rfl, rfl, Or.inr ⟨out.1, rfl, Or.inr ⟨_, rfl⟩⟩⟩

/-- Only transactions change the database. -/
theorem exec_db_eq {op : Op} {answer : Except PyError op.Answer}
    (h : exec qm thread choice op w = some (answer, w')) (hop : ∀ q, op ≠ .db q) :
    w'.db = w.db := by
  cases op with
  | db q => exact absurd rfl (hop q)
  | now | uuid | shutdownRequested | release =>
      cases h
      rfl
  | gitlab | sleep | broadcast =>
      simp only [exec] at h
      split at h <;> cases h <;> rfl
  | acquire lock =>
      simp only [exec] at h
      split at h
      · cases h
        rfl
      · split at h <;> cases h
        rfl

/-- The database changes by a transaction that returns. -/
theorem exec_db_cases {op : Op} {answer : Except PyError op.Answer}
    (h : exec qm thread choice op w = some (answer, w')) :
    w'.db = w.db ∨ ∃ q a, op = .db q ∧
      q.exec qm choice.now choice.tokens w.db = .ok (a, w'.db) := by
  by_cases hop : ∃ q, op = .db q
  · obtain ⟨q, rfl⟩ := hop
    rcases (exec_db h).2.2 with ⟨hsame, -⟩ | ⟨a, hexec, -⟩
    · exact Or.inl hsame
    · exact Or.inr ⟨q, a, rfl, hexec⟩
  · exact Or.inl (exec_db_eq h fun q hq ↦ hop ⟨q, hq⟩)

/-- Only locks change who holds which lock. -/
theorem exec_locks_eq {op : Op} {answer : Except PyError op.Answer}
    (h : exec qm thread choice op w = some (answer, w')) (hacquire : ∀ lock, op ≠ .acquire lock)
    (hrelease : ∀ lock, op ≠ .release lock) : w'.locks = w.locks := by
  cases op with
  | db q => exact (exec_db h).1
  | acquire lock => exact absurd rfl (hacquire lock)
  | release lock => exact absurd rfl (hrelease lock)
  | now | uuid | shutdownRequested =>
      cases h
      rfl
  | gitlab | sleep | broadcast =>
      simp only [exec] at h
      split at h <;> cases h <;> rfl

/-- A lock is taken where nobody holds it. -/
theorem exec_acquire {lock : LockName} {answer : Except PyError Unit}
    (h : exec qm thread choice (.acquire lock) w = some (answer, w')) :
    (w' = w ∧ ∃ e, answer = .error e) ∨
      (answer = .ok () ∧ w.held lock = false ∧
        w' = { w with locks := (lock, thread) :: w.locks }) := by
  simp only [exec] at h
  split at h
  · cases h
    exact Or.inl ⟨rfl, _, rfl⟩
  · split at h
    · cases h
    · next hheld =>
        cases h
        exact Or.inr ⟨rfl, by simpa using hheld, rfl⟩

end World

/-! ## Programs -/

abbrev Prog (α : Type) := Program Op Op.Answer Local PyError α

namespace Prog

def await (op : Op) : Prog op.Answer := Program.call op

def db (op : QueueOp) : Prog op.Answer := await (.db op)

def gitlab (call : GitLabCall) : Prog call.Answer := await (.gitlab call)

def now : Prog ℤ := await .now

def getQueueItem (projectId mrIid : ℕ) : Prog (Option QueueItem) :=
  db (.getQueueItem projectId mrIid)

/-- `async with lock`. -/
def withLock {α : Type} (lock : LockName) (body : Prog α) : Prog α := do
  await (.acquire lock)
  body.ensuring (await (.release lock))

/-- The state machine that the task created. -/
def machine : Prog Machine := do
  let s ← Program.read
  match s.machine with
  | some m => pure m
  | none => throw (.attributeError "current_state")

/-- The status that the task takes the row to have from now on. -/
def takeView (status : Status) : Prog Unit := Program.update fun s ↦ { s with view := status }

/-- `update_mr_state`. -/
def updateMrState (projectId mrIid : ℕ) (state : Status) (extra : QueueManager.Extra) :
    Prog Unit := do
  let _ ← db (.updateMrState projectId mrIid state extra)
  takeView state

end Prog

/-! ## Plain operations -/

/-- The call reads the queue or deals with the feedback for waiting merge requests. -/
def QueueOp.plain : QueueOp → Bool
  | getQueueItem .. | getActiveQueue .. | getPendingCompletions .. | getStaleMrs .. | getMrState ..
  | clearPendingNotification .. | stageCompletionPositions .. => true
  | _ => false

/-- The operation neither writes the row of a merge request, nor tells its outcome,
nor takes part in completions. -/
def Op.plain : Op → Bool
  | db op => op.plain
  | gitlab (.addOrUpdatePinnedComment _ { status := .outcome _, .. }) => false
  | acquire (.completion ..) | release (.completion ..) => false
  | _ => true

/-- The operation takes part in the delivery of feedback to a waiting merge request:
it reads the queue, comments, or clears the feedback that was sent. -/
def Op.delivers : Op → Bool
  | db (.getQueueItem ..) | db (.getActiveQueue ..) | db (.clearPendingNotification ..) => true
  | gitlab (.addOrUpdatePinnedComment _ { status := .waiting _, .. }) => true
  | acquire (.notification ..) | release (.notification ..) => true
  | _ => false

/-- The request is about comments, labels or names, and not about a branch or a pipeline. -/
def GitLabCall.settles : GitLabCall → Bool
  | addOrUpdatePinnedComment .. | removeMrLabel .. | putLabels .. | getUser | getProjectWebUrl =>
      true
  | _ => false

/-- The operation may belong to the entry into a state other than testing: it looks at no
branch and no pipeline, and waits for nothing but a lock. -/
def Op.settles : Op → Bool
  | gitlab call => call.settles
  | db (.updateMrState _ _ .testing _) | shutdownRequested | sleep _ => false
  | db _ | acquire _ | release _ | now | uuid | broadcast => true

/-- The operation is plain and may belong to the entry into a state. -/
def Op.tends (op : Op) : Bool := op.plain && op.settles

theorem Op.plain_of_tends {op : Op} (h : op.tends = true) : op.plain = true :=
  (Bool.and_eq_true_iff.mp h).1

theorem Op.settles_of_tends {op : Op} (h : op.tends = true) : op.settles = true :=
  (Bool.and_eq_true_iff.mp h).2

theorem Op.tends_of_delivers {op : Op} (h : op.delivers = true) : op.tends = true := by
  unfold Op.delivers at h
  split at h <;> first | rfl | cases h

/-- A program of such operations that leaves its task's state machine alone. -/
abbrev Prog.Tends {α : Type} (p : Prog α) : Prop := p.Leaves fun op ↦ op.tends = true

/-- A program that delivers feedback and leaves its task's state machine alone. -/
abbrev Prog.Delivers {α : Type} (p : Prog α) : Prop := p.Leaves fun op ↦ op.delivers = true

namespace Prog

open Interleave.Program (Leaves)

theorem Delivers.tends {α : Type} {p : Prog α} (h : p.Delivers) : p.Tends :=
  Leaves.mono h fun _ ↦ Op.tends_of_delivers

theorem leaves_await {permits : Op → Prop} {op : Op} (h : permits op) :
    Leaves permits (await op) :=
  Leaves.call h

theorem leaves_withLock {α : Type} {permits : Op → Prop} {lock : LockName} {body : Prog α}
    (hacquire : permits (.acquire lock)) (hrelease : permits (.release lock))
    (hbody : body.Leaves permits) : Leaves permits (withLock lock body) :=
  (leaves_await hacquire).bind fun _ ↦ hbody.ensuring (leaves_await hrelease)

theorem delivers_db {op : QueueOp} (h : (Op.db op).delivers = true) : Delivers (db op) :=
  leaves_await h

theorem delivers_getQueueItem (projectId mrIid : ℕ) : Delivers (getQueueItem projectId mrIid) :=
  delivers_db rfl

theorem tends_await {op : Op} (h : op.tends = true) : Tends (await op) := leaves_await h

theorem tends_db {op : QueueOp} (h : (Op.db op).tends = true) : Tends (db op) := leaves_await h

end Prog

end MergeQueue
