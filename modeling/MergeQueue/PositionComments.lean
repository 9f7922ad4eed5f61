import MergeQueue.PriorityActivation
import MergeQueue.QueueCompletion
import MergeQueue.Lib.RelyGuarantee

/-!
# One position comment per completion

A completion stages the positions that it captured twice: in the transaction that deletes
its row, and again when that transaction has returned.  Drains deliver what is staged, each
under the notification lock of the merge request.
-/

namespace MergeQueue

open Interleave (Program System Config Event Move Discipline Task)
open QueueManager

namespace QueueCompletion

/-- The end of `archive`: the transaction and what follows it. -/
def finalize (settings : Settings) (item : QueueItem) (payload : CompletionPayload) :
    Prog Unit := do
  let done ← Prog.db (.finalizeCompletion settings.gitlabProjectId item payload)
  if done then afterCompletion settings payload

theorem archive_eq (settings : Settings) (item current : QueueItem) (payload : CompletionPayload) :
    archive settings item current payload =
      settleRequeue settings item payload current.requeueRequest >>= finalize settings current :=
  rfl

end QueueCompletion

/-- The feedback that a completion stages. -/
def NotificationStatus.tellsPosition : NotificationStatus → Bool
  | positionChanged | totalChanged => true
  | queued | priorityChanged | positionChangedPriority | positionChangedHotfix
  | totalChangedHotfix => false

/-! ## The tasks and what they tell -/

/-- A completion with what follows it, a drain, or a transaction of any other task. -/
inductive FeedbackTask
  | finalize (item : QueueItem) (payload : CompletionPayload)
  | drain
  | transaction (op : QueueOp)
  deriving DecidableEq

def FeedbackTask.body (settings : Settings) : FeedbackTask → Prog Unit
  | finalize item payload => QueueCompletion.finalize settings item payload
  | drain => QueuePositionNotifier.retryPending settings
  | transaction op => do
      let _ ← Prog.db op

/-- The world, and beside it which completion caused what.  Completions are numbered as they are
finalized.  `finalized` is the completion that a task has finalized and not yet staged again,
`source` the one that staged the position feedback on the row of a merge request, and `reading`
that of the feedback which a task read last.  `told` lists the comments that were sent. -/
structure CommentedWorld where
  world : World
  completions : ℕ := 0
  finalized : ℕ → Option ℕ := fun _ ↦ none
  source : ℕ → Option ℕ := fun _ ↦ none
  reading : ℕ → Option (ℕ × ℕ) := fun _ ↦ none
  told : List (ℕ × ℕ) := []
  interrupted : Bool := false

/-- The feedback that is pending on the row of a merge request. -/
def World.pendingFeedback (settings : Settings) (w : World) (iid : ℕ) :
    Option PendingNotification :=
  (w.db.row settings.gitlabProjectId iid).bind MergeRequestRow.pendingNotification

namespace CommentedWorld

variable (settings : Settings) (w : CommentedWorld) (thread : ℕ)

/-- The completion for which the operation stages feedback. -/
def stagedBy : Op → Option ℕ
  | .db (.finalizeCompletion ..) => some w.completions
  | .db (.stageCompletionPositions ..) => w.finalized thread
  | _ => none

def nextCompletions : Op → ℕ
  | .db (.finalizeCompletion ..) => w.completions + 1
  | _ => w.completions

def nextFinalized : (op : Op) → Except PyError op.Answer → ℕ → Option ℕ
  | .db (.finalizeCompletion ..), .ok true =>
      Function.update w.finalized thread (some w.completions)
  | .db (.finalizeCompletion ..), _ | .db (.stageCompletionPositions ..), _ =>
      Function.update w.finalized thread none
  | _, _ => w.finalized

def nextSource (op : Op) (world : World) (iid : ℕ) : Option ℕ :=
  if world.pendingFeedback settings iid = w.world.pendingFeedback settings iid then w.source iid
  else if (world.pendingFeedback settings iid).any fun pending ↦ pending.status.tellsPosition then
    w.stagedBy thread op
  else none

def nextReading : (op : Op) → Except PyError op.Answer → ℕ → Option (ℕ × ℕ)
  | .db (.getQueueItem _ iid), .ok _ =>
      Function.update w.reading thread ((w.source iid).map fun completion ↦ (completion, iid))
  | _, _ => w.reading

def nextTold : (op : Op) → Except PyError op.Answer → List (ℕ × ℕ)
  | .gitlab (.addOrUpdatePinnedComment iid { status := .waiting status, .. }), .ok _ =>
      if status.tellsPosition then
        ((w.reading thread).map fun reading ↦ (reading.1, iid)).toList ++ w.told
      else w.told
  | _, _ => w.told

/-- What is recorded of an operation of the task number `thread`. -/
def observe (op : Op) (answer : Except PyError op.Answer) (world : World) : CommentedWorld where
  world
  completions := w.nextCompletions op
  finalized := w.nextFinalized thread op answer
  source := w.nextSource settings thread op world
  reading := w.nextReading thread op answer
  told := w.nextTold thread op answer
  interrupted := w.interrupted

/-- A restart loses the tasks and the locks.  It interrupts a delivery if a comment was sent and
its feedback is still pending. -/
def restart : CommentedWorld :=
  { w with
    world := { w.world with locks := [] }
    finalized := fun _ ↦ none
    reading := fun _ ↦ none
    interrupted := w.interrupted || w.told.any fun entry ↦ w.source entry.2 = some entry.1 }

end CommentedWorld

def feedbackSystem (settings : Settings) : System Op Op.Answer Local PyError where
  World := CommentedWorld
  Choice := Choice
  Entry := FeedbackTask
  exec thread choice op w :=
    (World.exec settings.qm thread choice op w.world).map fun out ↦
      (out.1, w.observe settings thread op out.1 out.2)
  body := FeedbackTask.body settings
  init := fun _ ↦ {}
  arrive := fun _ w ↦ w
  crash := CommentedWorld.restart

/-! ## What a staging changes -/

section Staging

variable {projectId oldTotal : ℕ} {positions : List (ℕ × ℕ)} {db : Database}

/-- A staging gives the row feedback. -/
def restages (projectId : ℕ) (positions : List (ℕ × ℕ)) (oldTotal : ℕ) (db : Database)
    (row : MergeRequestRow) : Bool :=
  let queue := selectActiveQueue db projectId
  (queue.zipIdx 1).any fun entry ↦
    entry.1 = row && (completionFeedback positions oldTotal queue.length id entry.2 row).isSome

theorem completionFeedback_of_pending {total position : ℕ} {tokens : ℕ → Uuid}
    {row : MergeRequestRow} (h : row.pendingNotification ≠ none) :
    completionFeedback positions oldTotal total tokens position row = none := by
  unfold completionFeedback
  cases positions.lookup row.iid with
  | none => rfl
  | some previous => exact if_pos (Or.inr h)

theorem completionFeedback_isSome_congr {total position : ℕ} {tokens tokens' : ℕ → Uuid}
    {row : MergeRequestRow} :
    (completionFeedback positions oldTotal total tokens position row).isSome =
      (completionFeedback positions oldTotal total tokens' position row).isSome := by
  unfold completionFeedback
  cases positions.lookup row.iid with
  | none => rfl
  | some previous =>
      simp only
      split_ifs <;> rfl

/-- A staging leaves a row alone or gives it feedback that it did not have. -/
theorem stageCompletionPositions_rows (projectId : ℕ) (positions : List (ℕ × ℕ)) (oldTotal : ℕ)
    (tokens : ℕ → Uuid) (db : Database) :
    ∃ f : MergeRequestRow → MergeRequestRow,
      (stageCompletionPositions projectId positions oldTotal tokens db).mergeRequests.rows =
        db.mergeRequests.rows.map f ∧
      (∀ r, QueueOp.Feedback r (f r)) ∧
      ∀ r ∈ db.mergeRequests.rows, f r = r ∨
        (restages projectId positions oldTotal db r = true ∧ r.pendingNotification = none) := by
  let queue := selectActiveQueue db projectId
  let feedback := completionFeedback positions oldTotal queue.length tokens
  have hids : (queue.map MergeRequestRow.id).Nodup := nodup_ids projectId db
  have hentries : ((queue.zipIdx 1).map fun entry ↦ entry.1.id).Nodup := by
    have hsame : (queue.zipIdx 1).map (fun entry ↦ entry.1.id) =
        queue.map MergeRequestRow.id := by
      conv_rhs => rw [← List.zipIdx_map_fst 1 queue, List.map_map]
      rfl
    rwa [hsame]
  refine ⟨feedbackRow feedback (queue.zipIdx 1), stageFeedback_rows_eq hentries,
    feedback_feedbackRow, fun r hr ↦ ?_⟩
  by_cases hin : r ∈ queue
  · obtain ⟨k, hk⟩ := List.getElem?_of_mem hin
    rw [feedbackRow_of_getElem? hids hk]
    cases hfeedback : feedback (k + 1) r with
    | none => exact Or.inl (by rw [Option.none_or])
    | some pending =>
        refine Or.inr ⟨?_, ?_⟩
        · have hentry : (r, k + 1) ∈ queue.zipIdx 1 :=
            List.mem_zipIdx_iff_le_and_getElem?_sub.mpr ⟨by simp, by simpa using hk⟩
          have hsome : (completionFeedback positions oldTotal queue.length id (k + 1) r).isSome :=
            completionFeedback_isSome_congr.trans (congrArg Option.isSome hfeedback)
          exact List.any_eq_true.mpr ⟨_, hentry, by simpa using hsome⟩
        · by_contra hpending
          cases (completionFeedback_of_pending hpending).symm.trans hfeedback
  · refine Or.inl (feedbackRow_of_not_mem fun s hs hid ↦ hin ?_)
    obtain ⟨hmem, -, -⟩ := mem_getAllActive.mp hs
    exact db.mergeRequests.eq_of_rowId_eq hmem hr hid ▸ hs

end Staging

/-! ## Pending feedback is kept -/

/-- The rows of `db'` that were rows of `db` with pending feedback have that feedback still. -/
def KeepsPending (except : Option ℕ) (db db' : Database) : Prop :=
  ∀ r ∈ db.mergeRequests.rows, some r.iid ≠ except → r.pendingNotification ≠ none →
    ∀ r' ∈ db'.mergeRequests.rows, r'.id = r.id → r'.pendingNotification = r.pendingNotification

section Keeping

variable {settings : Settings} {projectId oldTotal : ℕ} {positions : List (ℕ × ℕ)}
  {tokens : ℕ → Uuid} {db : Database}

theorem KeepsPending.of_eq {except : Option ℕ} {db' : Database} (h : db' = db) :
    KeepsPending except db db' := by
  subst h
  intro r hr _ _ r' hr' hid
  rw [db'.mergeRequests.eq_of_rowId_eq hr' hr hid]

theorem mem_stageCompletionPositions {r' : MergeRequestRow}
    (h : r' ∈
      (stageCompletionPositions projectId positions oldTotal tokens db).mergeRequests.rows) :
    ∃ r ∈ db.mergeRequests.rows, QueueOp.Feedback r r' ∧
      (r' = r ∨ (restages projectId positions oldTotal db r = true ∧
        r.pendingNotification = none)) := by
  obtain ⟨f, hrows, hfeedback, hf⟩ := stageCompletionPositions_rows projectId positions
    oldTotal tokens db
  rw [hrows] at h
  obtain ⟨r, hr, rfl⟩ := List.mem_map.mp h
  exact ⟨r, hr, hfeedback r, hf r hr⟩

theorem stageCompletionPositions_keeps :
    KeepsPending none db (stageCompletionPositions projectId positions oldTotal tokens db) := by
  intro r hr _ hpending r' hr' hid
  obtain ⟨s, hs, hfeedback, hsame⟩ := mem_stageCompletionPositions hr'
  have hsid : s.id = r.id := hfeedback.identity.1.symm.trans hid
  obtain rfl := db.mergeRequests.eq_of_rowId_eq hs hr hsid
  rcases hsame with rfl | ⟨-, hnone⟩
  · rfl
  · exact absurd hnone hpending

/-- The transfer of an admission leaves the rows of the other merge requests alone. -/
theorem transferRequeue_eq_of_id {qm : QueueManager} {mrIid : ℕ} {payload : CompletionPayload}
    {requeue : Requeue} {now : ℤ} {token : Uuid} {db' : Database} {r r' : MergeRequestRow}
    (h : qm.transferRequeue projectId mrIid payload requeue now token db = .ok db')
    (hid : r.id < db.mergeRequests.nextId) (hiid : r.iid ≠ mrIid)
    (hr : ∀ s ∈ db.mergeRequests.rows, s.id = r.id → s = r)
    (hr' : r' ∈ db'.mergeRequests.rows) (hsame : r'.id = r.id) : r' = r := by
  obtain ⟨admission, hotfix, automated, -, -, rfl⟩ := QueueOp.transferRequeue_eq_ok h
  rw [KeyedTable.mem_updateWhere] at hr'
  obtain ⟨s, hs, rfl⟩ := hr'
  have hsid : s.id = r.id := by
    rw [← hsame]
    split_ifs <;> rfl
  have hsr : s = r := by
    rcases QueueOp.of_mem_insertMr hs with hs | rfl
    · exact hr s hs hsid
    · have hnew : db.mergeRequests.nextId = r.id := hsid
      omega
  subst hsr
  exact if_neg (by simp [hiid])

theorem finalizeCompletion_keeps {qm : QueueManager} {item : QueueItem}
    {payload : CompletionPayload} {now : ℤ} {db' : Database} {done : Bool}
    (h : qm.finalizeCompletion projectId item payload now tokens db = .ok (done, db')) :
    KeepsPending (some item.mrIid) db db' := by
  rcases QueueOp.finalizeCompletion_eq_ok h with ⟨-, rfl⟩ | ⟨-, -, db₁, hdb₁, rfl⟩
  · exact KeepsPending.of_eq rfl
  · intro r hr hiid hpending
    have harchived : ∀ s ∈ (QueueOp.archived projectId item payload db).mergeRequests.rows,
        s.id = r.id → s = r := by
      intro s hs hid
      exact db.mergeRequests.eq_of_rowId_eq (KeyedTable.mem_deleteWhere.mp hs).1 hr hid
    have hfirst : ∀ s ∈ db₁.mergeRequests.rows, s.id = r.id → s = r := by
      rcases hdb₁ with ⟨-, rfl⟩ | ⟨requeue, -, -, htransfer⟩
      · exact harchived
      · have hlt : r.id < (QueueOp.archived projectId item payload db).mergeRequests.nextId :=
          (KeyedTable.hasId_of_mem hr).lt_nextId
        have hne : r.iid ≠ item.mrIid := fun heq ↦ hiid (by rw [heq])
        exact fun s hs hid ↦ transferRequeue_eq_of_id htransfer hlt hne harchived hs hid
    intro r' hr' hid
    obtain ⟨s, hs, hfeedback, hsame⟩ := mem_stageCompletionPositions hr'
    obtain rfl := hfirst s hs (hfeedback.identity.1.symm.trans hid)
    rcases hsame with rfl | ⟨-, hnone⟩
    · rfl
    · exact absurd hnone hpending

end Keeping

/-! ## Who is told -/

namespace CommentedWorld

variable (settings : Settings) (w : CommentedWorld)

/-- The task holds the lock under which the merge request is told. -/
def Holds (thread iid : ℕ) : Prop :=
  (LockName.notification settings.gitlabProjectId iid, thread) ∈ w.world.locks

/-- A task that holds the lock has read the feedback of the completion. -/
def delivering (completion iid : ℕ) : Bool :=
  w.world.locks.any fun entry ↦
    entry.1 = .notification settings.gitlabProjectId iid &&
      w.reading entry.2 = some (completion, iid)

/-- The merge request was told of the completion, or it is about to be. -/
def informed (completion iid : ℕ) : Bool :=
  w.told.contains (completion, iid) || w.delivering settings completion iid

/-- What is told of a completion is no longer pending, but for who holds the lock. -/
structure Consistent : Prop where
  exclusive : ∀ lock i j, (lock, i) ∈ w.world.locks → (lock, j) ∈ w.world.locks → i = j
  told_lt : ∀ n iid, (n, iid) ∈ w.told → n < w.completions
  reading_lt : ∀ i n iid, w.reading i = some (n, iid) → n < w.completions
  source_lt : ∀ iid n, w.source iid = some n → n < w.completions
  finalized_lt : ∀ i n, w.finalized i = some n → n < w.completions
  acknowledging : ∀ n iid, (n, iid) ∈ w.told → w.source iid = some n → ∃ i, w.Holds settings i iid

end CommentedWorld

/-- No restart interrupts a delivery, feedback that was delivered is cleared, and the second
staging of a completion gives no feedback to a merge request that was told of it or is about to
be. -/
def Prompt {settings : Settings} (e : Event (feedbackSystem settings)) : Prop :=
  CommentedWorld.interrupted e.before = false ∧
    match e.op with
    | .db (.clearPendingNotification ..) =>
        ∀ reading ∈ CommentedWorld.reading e.before e.thread,
          reading ∈ CommentedWorld.told e.before → e.answer.isOk = true
    | .db (.stageCompletionPositions projectId positions oldTotal) =>
        ∀ completion ∈ CommentedWorld.finalized e.before e.thread,
          ∀ r ∈ (CommentedWorld.world e.before).db.mergeRequests.rows,
            r.projectId = settings.gitlabProjectId →
              CommentedWorld.informed settings e.before completion r.iid = true →
                restages projectId positions oldTotal (CommentedWorld.world e.before).db r = false
    | _ => True

/-- A staging leaves the feedback of the merge requests other than the completed one alone. -/
def OverwritesNothing {settings : Settings} (e : Event (feedbackSystem settings)) : Prop :=
  match e.op with
  | .db (.finalizeCompletion _ item _) =>
      KeepsPending (some item.mrIid) (CommentedWorld.world e.before).db
        (CommentedWorld.world e.after).db
  | .db (.stageCompletionPositions ..) =>
      KeepsPending none (CommentedWorld.world e.before).db (CommentedWorld.world e.after).db
  | _ => True

namespace CommentedWorld

variable {settings : Settings} {w w' : CommentedWorld} {i : ℕ} {choice : Choice} {world : World}

/-- The feedback of the merge request stays, or it is not from a completion that the merge
request was told of. -/
def Settles (settings : Settings) (w w' : CommentedWorld) (iid : ℕ) : Prop :=
  (w'.world.pendingFeedback settings iid = w.world.pendingFeedback settings iid ∧
      w'.source iid = w.source iid) ∨
    ∀ n, w'.source iid = some n → w.informed settings n iid = false

theorem informed_eq_false {n iid : ℕ} (htold : (n, iid) ∉ w.told)
    (hreading : ∀ i, w.reading i ≠ some (n, iid)) : w.informed settings n iid = false := by
  simp only [informed, delivering, Bool.or_eq_false_iff]
  refine ⟨by simpa using htold, List.any_eq_false.mpr fun entry _ ↦ ?_⟩
  simp [hreading entry.2]

theorem of_informed_eq_false {n iid : ℕ} (h : w.informed settings n iid = false) :
    (n, iid) ∉ w.told ∧ ∀ i, w.Holds settings i iid → w.reading i ≠ some (n, iid) := by
  simp only [informed, delivering, Bool.or_eq_false_iff] at h
  refine ⟨by simpa using h.1, fun i hholds hreading ↦ ?_⟩
  have hentry := List.any_eq_false.mp h.2 _ hholds
  simp [hreading] at hentry

theorem pendingFeedback_stage {projectId oldTotal iid : ℕ} {positions : List (ℕ × ℕ)}
    {tokens : ℕ → Uuid} {db : Database}
    (h : ∀ r ∈ db.mergeRequests.rows, r.projectId = settings.gitlabProjectId → r.iid = iid →
      restages projectId positions oldTotal db r = false) :
    ((stageCompletionPositions projectId positions oldTotal tokens db).row settings.gitlabProjectId
        iid).bind MergeRequestRow.pendingNotification =
      (db.row settings.gitlabProjectId iid).bind MergeRequestRow.pendingNotification := by
  obtain ⟨f, hrows, hfeedback, hf⟩ := stageCompletionPositions_rows projectId positions
    oldTotal tokens db
  have hrow : (stageCompletionPositions projectId positions oldTotal tokens db).row
      settings.gitlabProjectId iid = (db.row settings.gitlabProjectId iid).map f :=
    KeyedTable.byKey_of_rows_eq_map hrows (fun r ↦ (hfeedback r).identity.2) _
  rw [hrow]
  cases hfound : db.row settings.gitlabProjectId iid with
  | none => rfl
  | some r =>
      have hmem := KeyedTable.mem_of_byKey hfound
      have hkey := KeyedTable.key_of_byKey hfound
      simp only [key_mergeRequestRow, Prod.mk.injEq] at hkey
      rcases hf r hmem with hsame | ⟨hrestages, -⟩
      · rw [Option.map_some, hsame]
      · rw [h r hmem hkey.1 hkey.2] at hrestages
        cases hrestages

end CommentedWorld

/-! ## What an operation changes -/

namespace CommentedWorld

section Observed

variable {settings : Settings} {w : CommentedWorld} {i : ℕ} {choice : Choice} {world : World}
  {op : Op} {answer : Except PyError op.Answer} {entry : FeedbackTask} {s : Local}

/-- The event of an operation that the task number `i` has performed. -/
def eventOf (settings : Settings) (w : CommentedWorld) (i : ℕ) (entry : FeedbackTask) (s : Local)
    (op : Op) (answer : Except PyError op.Answer) (world : World) :
    Event (feedbackSystem settings) where
  thread := i
  entry := entry
  state := s
  op := op
  answer := answer
  before := w
  after := w.observe settings i op answer world

theorem nextSource_eq_some {iid n : ℕ} (h : w.nextSource settings i op world iid = some n) :
    (world.pendingFeedback settings iid = w.world.pendingFeedback settings iid ∧
        w.source iid = some n) ∨ w.stagedBy i op = some n := by
  unfold nextSource at h
  split_ifs at h with hsame htells
  · exact Or.inl ⟨hsame, h⟩
  · exact Or.inr h

theorem stagedBy_lt {n : ℕ} (hc : w.Consistent settings) (h : w.stagedBy i op = some n) :
    n < w.nextCompletions op := by
  unfold stagedBy at h
  split at h
  · cases h
    exact Nat.lt_succ_self _
  · exact hc.finalized_lt i n h
  · cases h

theorem completions_le (op : Op) : w.completions ≤ w.nextCompletions op := by
  unfold nextCompletions
  split
  · exact Nat.le_succ _
  · exact Nat.le_refl _

/-- A merge request that was told of a completion, or is about to be, gets no feedback of it. -/
theorem settles_observe (hexec : World.exec settings.qm i choice op w.world = some (answer, world))
    (hc : w.Consistent settings)
    (hprompt : Prompt (w.eventOf settings i entry s op answer world)) (iid : ℕ) :
    Settles settings w (w.observe settings i op answer world) iid := by
  by_cases hsame : world.pendingFeedback settings iid = w.world.pendingFeedback settings iid
  · exact Or.inl ⟨hsame, if_pos hsame⟩
  refine Or.inr fun n hn ↦ ?_
  have hstaged := (nextSource_eq_some hn).resolve_left fun h ↦ hsame h.1
  unfold stagedBy at hstaged
  split at hstaged
  · cases hstaged
    refine informed_eq_false (fun h ↦ ?_) fun j h ↦ ?_
    · exact absurd (hc.told_lt _ _ h) (lt_irrefl _)
    · exact absurd (hc.reading_lt _ _ _ h) (lt_irrefl _)
  · next projectId positions oldTotal =>
      by_contra hinformed
      rw [Bool.not_eq_false] at hinformed
      refine hsame ?_
      have hquiet : ∀ r ∈ w.world.db.mergeRequests.rows,
          r.projectId = settings.gitlabProjectId → r.iid = iid →
            restages projectId positions oldTotal w.world.db r = false := by
        intro r hr hproject hiid
        exact hprompt.2 n hstaged r hr hproject (hiid ▸ hinformed)
      rcases (World.exec_db hexec).2.2 with ⟨hdb, -⟩ | ⟨a, hdb, -⟩
      · rw [World.pendingFeedback, World.pendingFeedback, hdb]
      · obtain ⟨-, hdb⟩ := Prod.mk.inj (Except.ok.inj hdb)
        rw [World.pendingFeedback, World.pendingFeedback, ← hdb]
        exact pendingFeedback_stage hquiet
  · cases hstaged

theorem nextReading_eq_some {j n iid : ℕ} (h : w.nextReading i op answer j = some (n, iid)) :
    w.reading j = some (n, iid) ∨ w.source iid = some n := by
  unfold nextReading at h
  split at h
  · next iid' a =>
      by_cases hij : j = i
      · subst hij
        rw [Function.update_self] at h
        obtain ⟨m, hm, heq⟩ := Option.map_eq_some_iff.mp h
        cases heq
        exact Or.inr hm
      · rw [Function.update_of_ne hij] at h
        exact Or.inl h
  · exact Or.inl h

theorem nextReading_getQueueItem (projectId iid : ℕ) (found : Option QueueItem) :
    w.nextReading i (.db (.getQueueItem projectId iid)) (.ok found) i =
      (w.source iid).map fun completion ↦ (completion, iid) := by
  simp only [nextReading, Function.update_self]

theorem nextReading_of_ne {j : ℕ} (h : j ≠ i) : w.nextReading i op answer j = w.reading j := by
  unfold nextReading
  split
  · exact Function.update_of_ne h _ _
  · rfl

theorem nextFinalized_eq_some {j n : ℕ} (h : w.nextFinalized i op answer j = some n) :
    w.finalized j = some n ∨ n < w.nextCompletions op := by
  unfold nextFinalized at h
  split at h
  · by_cases hij : j = i
    · subst hij
      rw [Function.update_self] at h
      cases h
      exact Or.inr (Nat.lt_succ_self _)
    · rw [Function.update_of_ne hij] at h
      exact Or.inl h
  · by_cases hij : j = i
    · subst hij
      rw [Function.update_self] at h
      cases h
    · rw [Function.update_of_ne hij] at h
      exact Or.inl h
  · by_cases hij : j = i
    · subst hij
      rw [Function.update_self] at h
      cases h
    · rw [Function.update_of_ne hij] at h
      exact Or.inl h
  · exact Or.inl h

/-- The record stays consistent if the locks are exclusive and whoever was told is settled. -/
theorem Consistent.observe (hc : w.Consistent settings)
    (hexclusive : ∀ lock j k, (lock, j) ∈ world.locks → (lock, k) ∈ world.locks → j = k)
    (htold : ∀ n iid, (n, iid) ∈ w.nextTold i op answer → n < w.completions)
    (hacknowledging : ∀ n iid, (n, iid) ∈ w.nextTold i op answer →
      w.nextSource settings i op world iid = some n →
        ∃ j, (LockName.notification settings.gitlabProjectId iid, j) ∈ world.locks) :
    (w.observe settings i op answer world).Consistent settings where
  exclusive := hexclusive
  told_lt n iid h := lt_of_lt_of_le (htold n iid h) (completions_le op)
  reading_lt j n iid h := by
    rcases nextReading_eq_some h with h | h
    · exact lt_of_lt_of_le (hc.reading_lt j n iid h) (completions_le op)
    · exact lt_of_lt_of_le (hc.source_lt iid n h) (completions_le op)
  source_lt iid n h := by
    rcases nextSource_eq_some h with ⟨-, h⟩ | h
    · exact lt_of_lt_of_le (hc.source_lt iid n h) (completions_le op)
    · exact stagedBy_lt hc h
  finalized_lt j n h := by
    rcases nextFinalized_eq_some h with h | h
    · exact lt_of_lt_of_le (hc.finalized_lt j n h) (completions_le op)
    · exact h
  acknowledging := hacknowledging

/-- An operation that leaves the locks alone and tells nobody keeps the record consistent. -/
theorem Consistent.quiet (hc : w.Consistent settings)
    (hexec : World.exec settings.qm i choice op w.world = some (answer, world))
    (hprompt : Prompt (w.eventOf settings i entry s op answer world))
    (hlocks : world.locks = w.world.locks) (htold : w.nextTold i op answer = w.told) :
    (w.observe settings i op answer world).Consistent settings := by
  refine hc.observe (hlocks ▸ hc.exclusive) (htold ▸ hc.told_lt) ?_
  intro n iid h hsource
  rw [htold] at h
  rw [hlocks]
  rcases settles_observe hexec hc hprompt iid with ⟨-, hsame⟩ | hother
  · exact hc.acknowledging n iid h (hsame ▸ hsource)
  · exact absurd h (of_informed_eq_false (hother n hsource)).1

end Observed

/-! ### What the others may do -/

/-- What a task relies on: its locks and what it read stay, nobody else tells the merge requests
whose lock it holds, and these get no feedback that they were told of or that it has read. -/
structure Others (settings : Settings) (j : ℕ) (w w' : CommentedWorld) : Prop where
  holds : ∀ iid, w.Holds settings j iid → w'.Holds settings j iid
  reading : w'.reading j = w.reading j
  told : ∀ iid, w.Holds settings j iid → ∀ n, (n, iid) ∈ w'.told ↔ (n, iid) ∈ w.told
  source : ∀ iid, w.Holds settings j iid →
    (w'.world.pendingFeedback settings iid = w.world.pendingFeedback settings iid ∧
      w'.source iid = w.source iid) ∨
      ∀ n, w'.source iid = some n → (n, iid) ∉ w.told ∧ w.reading j ≠ some (n, iid)

theorem Others.refl (settings : Settings) (j : ℕ) (w : CommentedWorld) :
    Others settings j w w :=
  ⟨fun _ h ↦ h, rfl, fun _ _ _ ↦ Iff.rfl, fun _ _ ↦ Or.inl ⟨rfl, rfl⟩⟩

theorem Others.trans {settings : Settings} {j : ℕ} {u v w : CommentedWorld}
    (huv : Others settings j u v) (hvw : Others settings j v w) : Others settings j u w where
  holds iid h := hvw.holds iid (huv.holds iid h)
  reading := hvw.reading.trans huv.reading
  told iid h n := (hvw.told iid (huv.holds iid h) n).trans (huv.told iid h n)
  source iid h := by
    rcases hvw.source iid (huv.holds iid h) with ⟨hpending, hsource⟩ | hother
    · rcases huv.source iid h with ⟨hpending', hsource'⟩ | hother'
      · exact Or.inl ⟨hpending.trans hpending', hsource.trans hsource'⟩
      · exact Or.inr fun n hn ↦ hother' n (hsource ▸ hn)
    · refine Or.inr fun n hn ↦ ?_
      obtain ⟨htold, hreading⟩ := hother n hn
      exact ⟨fun h' ↦ htold ((huv.told iid h n).mpr h'), fun h' ↦ hreading (huv.reading.trans h')⟩

theorem Others.of_settles {settings : Settings} {j : ℕ} {w w' : CommentedWorld}
    (hholds : ∀ iid, w.Holds settings j iid → w'.Holds settings j iid)
    (hreading : w'.reading j = w.reading j)
    (htold : ∀ iid, w.Holds settings j iid → ∀ n, (n, iid) ∈ w'.told ↔ (n, iid) ∈ w.told)
    (hsettles : ∀ iid, Settles settings w w' iid) : Others settings j w w' where
  holds := hholds
  reading := hreading
  told := htold
  source iid h := by
    refine (hsettles iid).imp_right fun hother n hn ↦ ?_
    obtain ⟨hnot, hnobody⟩ := of_informed_eq_false (hother n hn)
    exact ⟨hnot, hnobody j h⟩

end CommentedWorld

open CommentedWorld in
/-- Nobody is told twice, and what a task relies on holds. -/
def feedbackDiscipline (settings : Settings) : Discipline (feedbackSystem settings) where
  inv := fun w : CommentedWorld ↦
    w.told.Nodup ∧ (w.interrupted = false → w.Consistent settings)
  rely := fun j (w w' : CommentedWorld) ↦ Others settings j w w'
  allowed := Prompt
  rely_refl := fun j w ↦ Others.refl settings j w
  rely_trans := fun _ _ _ _ h h' ↦ h.trans h'

/-! ## A delivery, step by step -/

namespace Delivery

open CommentedWorld
open Interleave.Program (Safe)

variable {settings : Settings} {i : ℕ} {entry : FeedbackTask}

/-- The task holds the lock of the merge request, of which nothing that was told is pending. -/
def Free (settings : Settings) (i iid : ℕ) (_ : Local) (w : CommentedWorld) : Prop :=
  w.Holds settings i iid ∧ ∀ n, (n, iid) ∈ w.told → w.source iid ≠ some n

/-- The task has read the row under the lock. -/
def Read (settings : Settings) (i iid : ℕ) (item : QueueItem) (s : Local) (w : CommentedWorld) :
    Prop :=
  Free settings i iid s w ∧ ∀ n iid', w.reading i = some (n, iid') →
    iid' = iid ∧ (n, iid) ∉ w.told ∧
      (w.source iid = some n → w.world.pendingFeedback settings iid = item.pendingNotification)

/-- The task has sent the feedback that it read and not yet cleared it. -/
def Sent (settings : Settings) (i iid : ℕ) (pending : PendingNotification) (_ : Local)
    (w : CommentedWorld) : Prop :=
  w.Holds settings i iid ∧ ∀ n, (n, iid) ∈ w.told → w.source iid = some n →
    w.world.pendingFeedback settings iid = some pending ∧ w.reading i = some (n, iid)

section Stability

variable {iid : ℕ} {item : QueueItem} {pending : PendingNotification} {s : Local}
  {w v : CommentedWorld}

theorem Free.stable (h : Free settings i iid s w) (hv : Others settings i w v) :
    Free settings i iid s v := by
  refine ⟨hv.holds iid h.1, fun n hn hsource ↦ ?_⟩
  have htold := (hv.told iid h.1 n).mp hn
  rcases hv.source iid h.1 with ⟨-, hsame⟩ | hother
  · exact h.2 n htold (hsame ▸ hsource)
  · exact (hother n hsource).1 htold

theorem Read.stable (h : Read settings i iid item s w) (hv : Others settings i w v) :
    Read settings i iid item s v := by
  refine ⟨h.1.stable hv, fun n iid' hreading ↦ ?_⟩
  rw [hv.reading] at hreading
  obtain ⟨rfl, htold, hpending⟩ := h.2 n iid' hreading
  refine ⟨rfl, fun hn ↦ htold ((hv.told iid' h.1.1 n).mp hn), fun hsource ↦ ?_⟩
  rcases hv.source iid' h.1.1 with ⟨hsame, hsource'⟩ | hother
  · exact hsame.trans (hpending (hsource' ▸ hsource))
  · exact absurd hreading (hother n hsource).2

theorem Sent.stable (h : Sent settings i iid pending s w) (hv : Others settings i w v) :
    Sent settings i iid pending s v := by
  refine ⟨hv.holds iid h.1, fun n hn hsource ↦ ?_⟩
  have htold := (hv.told iid h.1 n).mp hn
  rcases hv.source iid h.1 with ⟨hsame, hsource'⟩ | hother
  · obtain ⟨hpending, hreading⟩ := h.2 n htold (hsource' ▸ hsource)
    exact ⟨hsame.trans hpending, hv.reading.trans hreading⟩
  · exact absurd htold (hother n hsource).1

end Stability

section Steps

variable {iid : ℕ} {item : QueueItem} {pending : PendingNotification} {s : Local}
  {w : CommentedWorld} {world : World} {choice : Choice} {op : Op}
  {answer : Except PyError op.Answer}

theorem holds_observe {j : ℕ} (hlocks : world.locks = w.world.locks) :
    (w.observe settings i op answer world).Holds settings j iid ↔ w.Holds settings j iid := by
  simp only [Holds, observe, hlocks]

theorem mem_told_observe {told : ℕ × ℕ} (htold : w.nextTold i op answer = w.told) :
    told ∈ (w.observe settings i op answer world).told ↔ told ∈ w.told := by
  simp only [observe, htold]

theorem respects_of (hnodup : (w.nextTold i op answer).Nodup)
    (hconsistent : (w.observe settings i op answer world).Consistent settings)
    (hholds : ∀ j ≠ i, ∀ iid, w.Holds settings j iid →
      (w.observe settings i op answer world).Holds settings j iid)
    (htold : ∀ j ≠ i, ∀ iid, w.Holds settings j iid → ∀ n,
      (n, iid) ∈ w.nextTold i op answer ↔ (n, iid) ∈ w.told)
    (hsettles : ∀ iid, Settles settings w (w.observe settings i op answer world) iid) :
    (feedbackDiscipline settings).Respects (eventOf settings w i entry s op answer world) where
  inv := ⟨hnodup, fun _ ↦ hconsistent⟩
  rely j hj := Others.of_settles (hholds j hj) (nextReading_of_ne hj) (htold j hj) hsettles
  good := trivial

/-- An operation that leaves the locks alone and tells nobody does what the others rely on. -/
theorem respects_quiet (hinv : (feedbackDiscipline settings).inv w)
    (hexec : World.exec settings.qm i choice op w.world = some (answer, world))
    (hprompt : Prompt (eventOf settings w i entry s op answer world))
    (hlocks : world.locks = w.world.locks) (htold : w.nextTold i op answer = w.told) :
    (feedbackDiscipline settings).Respects (eventOf settings w i entry s op answer world) := by
  have hc := hinv.2 hprompt.1
  refine respects_of (htold ▸ hinv.1) (hc.quiet hexec hprompt hlocks htold)
    (fun j _ _ h ↦ (holds_observe hlocks).mpr h) (fun j _ iid _ n ↦ ?_)
    fun iid ↦ settles_observe hexec hc hprompt iid
  rw [htold]

theorem Free.quiet (h : Free settings i iid s w) (hlocks : world.locks = w.world.locks)
    (htold : w.nextTold i op answer = w.told)
    (hsettles : Settles settings w (w.observe settings i op answer world) iid) :
    Free settings i iid s (w.observe settings i op answer world) := by
  refine ⟨(holds_observe hlocks).mpr h.1, fun n hn hsource ↦ ?_⟩
  rw [mem_told_observe htold] at hn
  rcases hsettles with ⟨-, hsame⟩ | hother
  · exact h.2 n hn (hsame ▸ hsource)
  · exact (of_informed_eq_false (hother n hsource)).1 hn

theorem Read.quiet (h : Read settings i iid item s w) (hlocks : world.locks = w.world.locks)
    (htold : w.nextTold i op answer = w.told) (hreading : w.nextReading i op answer = w.reading)
    (hsettles : Settles settings w (w.observe settings i op answer world) iid) :
    Read settings i iid item s (w.observe settings i op answer world) := by
  refine ⟨h.1.quiet hlocks htold hsettles, fun n iid' hread ↦ ?_⟩
  have hread : w.reading i = some (n, iid') := congrFun hreading i ▸ hread
  obtain ⟨rfl, hnot, hpending⟩ := h.2 n iid' hread
  refine ⟨rfl, fun hn ↦ hnot ((mem_told_observe htold).mp hn), fun hsource ↦ ?_⟩
  rcases hsettles with ⟨hsame, hsource'⟩ | hother
  · exact hsame.trans (hpending (hsource' ▸ hsource))
  · exact absurd hread ((of_informed_eq_false (hother n hsource)).2 i h.1.1)

end Steps

section Locks

variable {iid : ℕ} {item : QueueItem} {w : CommentedWorld} {s : Local} {world : World}
  {lock : LockName}

theorem nextSource_of_db {op : Op} (h : world.db = w.world.db) (iid : ℕ) :
    w.nextSource settings i op world iid = w.source iid :=
  if_pos (by rw [World.pendingFeedback, World.pendingFeedback, h])

theorem source_of_nextSource {op : Op} {n : ℕ}
    (h : w.nextSource settings i op world iid = some n) (hdb : world.db = w.world.db) :
    w.source iid = some n :=
  (nextSource_of_db hdb iid).symm.trans h

/-- A free lock: whoever was told has nothing pending. -/
theorem not_told_of_held (hc : w.Consistent settings)
    (hheld : w.world.held (.notification settings.gitlabProjectId iid) = false) {n : ℕ}
    (hn : (n, iid) ∈ w.told) : w.source iid ≠ some n := by
  intro hsource
  obtain ⟨j, hj⟩ := hc.acknowledging n iid hn hsource
  have hentry := List.any_eq_false.mp hheld _ hj
  simp at hentry

theorem settles_of_db {op : Op} {answer : Except PyError op.Answer} (h : world.db = w.world.db)
    (iid : ℕ) : Settles settings w (w.observe settings i op answer world) iid :=
  Or.inl ⟨by rw [observe, World.pendingFeedback, World.pendingFeedback, h],
    nextSource_of_db h iid⟩

theorem respects_acquire (hinv : (feedbackDiscipline settings).inv w)
    (hprompt : Prompt (eventOf settings w i entry s (.acquire lock) (.ok ())
      { w.world with locks := (lock, i) :: w.world.locks }))
    (hheld : w.world.held lock = false) :
    (feedbackDiscipline settings).Respects (eventOf settings w i entry s (.acquire lock) (.ok ())
      { w.world with locks := (lock, i) :: w.world.locks }) := by
  have hc := hinv.2 hprompt.1
  have hfree : ∀ j, (lock, j) ∉ w.world.locks := by
    intro j hj
    have hentry := List.any_eq_false.mp hheld _ hj
    simp at hentry
  refine respects_of hinv.1 (hc.observe ?_ hc.told_lt fun n iid hn hsource ↦ ?_)
    (fun j _ iid h ↦ List.mem_cons_of_mem _ h) (fun _ _ _ _ _ ↦ Iff.rfl) (settles_of_db rfl)
  · intro other j k hj hk
    rcases List.mem_cons.mp hj with hj | hj <;> rcases List.mem_cons.mp hk with hk | hk
    · cases hj
      cases hk
      rfl
    · cases hj
      exact absurd hk (hfree k)
    · cases hk
      exact absurd hj (hfree j)
    · exact hc.exclusive other j k hj hk
  · obtain ⟨j, hj⟩ := hc.acknowledging n iid hn (source_of_nextSource hsource rfl)
    exact ⟨j, List.mem_cons_of_mem _ hj⟩

/-- A task that gives up the lock leaves nothing pending that was told. -/
theorem respects_release (hinv : (feedbackDiscipline settings).inv w)
    (hprompt : Prompt (eventOf settings w i entry s
      (.release (.notification settings.gitlabProjectId iid)) (.ok ())
      { w.world with
        locks := w.world.locks.filter (· ≠ (.notification settings.gitlabProjectId iid, i)) }))
    (hfree : Free settings i iid s w) :
    (feedbackDiscipline settings).Respects (eventOf settings w i entry s
      (.release (.notification settings.gitlabProjectId iid)) (.ok ())
      { w.world with
        locks := w.world.locks.filter
          (· ≠ (.notification settings.gitlabProjectId iid, i)) }) := by
  have hc := hinv.2 hprompt.1
  refine respects_of hinv.1 (hc.observe ?_ hc.told_lt fun n iid' hn hsource ↦ ?_)
    (fun j hj iid' h ↦ ?_) (fun _ _ _ _ _ ↦ Iff.rfl) (settles_of_db rfl)
  · intro lock j k hj hk
    exact hc.exclusive lock j k (List.mem_of_mem_filter hj) (List.mem_of_mem_filter hk)
  · have hpending := source_of_nextSource hsource rfl
    obtain ⟨j, hj⟩ := hc.acknowledging n iid' hn hpending
    refine ⟨j, List.mem_filter.mpr ⟨hj, decide_eq_true fun heq ↦ ?_⟩⟩
    obtain ⟨hlock, -⟩ := Prod.mk.inj heq
    obtain ⟨-, rfl⟩ := LockName.notification.inj hlock
    exact hfree.2 n hn hpending
  · refine List.mem_filter.mpr ⟨h, decide_eq_true fun heq ↦ hj ?_⟩
    exact (Prod.mk.inj heq).2

theorem nextTold_comment (w : CommentedWorld) (i iid : ℕ) (context : Context)
    (status : NotificationStatus) :
    w.nextTold i (.gitlab (.addOrUpdatePinnedComment iid { status := .waiting status, context }))
        (.ok ()) = w.told ∨
      ∃ n iid', w.reading i = some (n, iid') ∧
        w.nextTold i
          (.gitlab (.addOrUpdatePinnedComment iid { status := .waiting status, context }))
          (.ok ()) = (n, iid) :: w.told := by
  unfold nextTold
  by_cases htells : status.tellsPosition = true
  · cases hreading : w.reading i with
    | none => exact Or.inl (if_pos htells)
    | some reading => exact Or.inr ⟨_, _, rfl, if_pos htells⟩
  · exact Or.inl (if_neg htells)

/-- A comment that arrives tells a merge request whose lock the task holds, and that was not told
before. -/
theorem respects_told {op : Op} {answer : Except PyError op.Answer} {n : ℕ}
    (hinv : (feedbackDiscipline settings).inv w)
    (hprompt : Prompt (eventOf settings w i entry s op answer world))
    (hdb : world.db = w.world.db) (hlocks : world.locks = w.world.locks)
    (hread : Read settings i iid item s w) (hreading : w.reading i = some (n, iid))
    (htold : w.nextTold i op answer = (n, iid) :: w.told) :
    (feedbackDiscipline settings).Respects (eventOf settings w i entry s op answer world) := by
  have hc := hinv.2 hprompt.1
  obtain ⟨-, hnot, -⟩ := hread.2 n iid hreading
  refine respects_of ?_ (hc.observe (hlocks ▸ hc.exclusive) (fun m iid' h ↦ ?_)
    fun m iid' h hsource ↦ ?_) (fun j _ _ h ↦ (holds_observe hlocks).mpr h)
    (fun j hj iid' h m ↦ ?_) (settles_of_db hdb)
  · rw [htold]
    exact List.nodup_cons.mpr ⟨hnot, hinv.1⟩
  · rw [htold] at h
    rcases List.mem_cons.mp h with h | h
    · cases h
      exact hc.reading_lt i n iid hreading
    · exact hc.told_lt m iid' h
  · rw [htold] at h
    rw [hlocks]
    rcases List.mem_cons.mp h with h | h
    · cases h
      exact ⟨i, hread.1.1⟩
    · exact hc.acknowledging m iid' h (source_of_nextSource hsource hdb)
  · rw [htold, List.mem_cons]
    refine or_iff_right fun heq ↦ hj ?_
    cases heq
    exact hc.exclusive _ j i h hread.1.1

end Locks

section Rules

variable {iid : ℕ} {item : QueueItem} {pending : PendingNotification}

theorem exec_eq_some {w w' : CommentedWorld} {choice : Choice} {op : Op}
    {answer : Except PyError op.Answer}
    (h : (feedbackSystem settings).exec i choice op w = some (answer, w')) :
    ∃ world, World.exec settings.qm i choice op w.world = some (answer, world) ∧
      w' = w.observe settings i op answer world := by
  obtain ⟨out, hexec, heq⟩ := Option.map_eq_some_iff.mp h
  cases heq
  exact ⟨out.2, hexec, rfl⟩

theorem safe_db (op : QueueOp) :
    Safe (feedbackDiscipline settings) i entry (fun _ _ ↦ True) (Prog.db op) (fun _ _ _ ↦ True)
      fun _ _ _ ↦ True := by
  refine Safe.call fun s w v _ _ hinv choice answer v' hcall hprompt ↦ ?_
  obtain ⟨world, hexec, rfl⟩ := exec_eq_some hcall
  refine ⟨respects_quiet hinv hexec hprompt (World.exec_db hexec).1 rfl, ?_⟩
  cases answer <;> trivial

theorem safe_db_free (op : QueueOp) :
    Safe (feedbackDiscipline settings) i entry (Free settings i iid) (Prog.db op)
      (fun _ ↦ Free settings i iid) fun _ ↦ Free settings i iid := by
  refine Safe.call fun s w v hw hv hinv choice answer v' hcall hprompt ↦ ?_
  obtain ⟨world, hexec, rfl⟩ := exec_eq_some hcall
  have hlocks := (World.exec_db hexec).1
  refine ⟨respects_quiet hinv hexec hprompt hlocks rfl, ?_⟩
  have hfree := (hw.stable hv).quiet hlocks rfl
    (settles_observe hexec (hinv.2 hprompt.1) hprompt iid)
  cases answer <;> exact hfree

theorem safe_getActiveQueue (projectId : ℕ) :
    Safe (feedbackDiscipline settings) i entry (Read settings i iid item)
      (Prog.db (.getActiveQueue projectId)) (fun _ ↦ Read settings i iid item)
      fun _ ↦ Free settings i iid := by
  refine Safe.call fun s w v hw hv hinv choice answer v' hcall hprompt ↦ ?_
  obtain ⟨world, hexec, rfl⟩ := exec_eq_some hcall
  have hlocks := (World.exec_db hexec).1
  refine ⟨respects_quiet hinv hexec hprompt hlocks rfl, ?_⟩
  have hread := (hw.stable hv).quiet hlocks rfl rfl
    (settles_observe hexec (hinv.2 hprompt.1) hprompt iid)
  cases answer with
  | ok queue => exact hread
  | error e => exact hread.1

/-- The feedback that the task reads is pending under its lock, so nobody was told of it. -/
theorem safe_getQueueItem :
    Safe (feedbackDiscipline settings) i entry (Free settings i iid)
      (Prog.getQueueItem settings.gitlabProjectId iid)
      (fun found s w ↦ Free settings i iid s w ∧ ∀ item ∈ found, Read settings i iid item s w)
      fun _ ↦ Free settings i iid := by
  refine Safe.call fun s w v hw hv hinv choice answer v' hcall hprompt ↦ ?_
  obtain ⟨world, hexec, rfl⟩ := exec_eq_some hcall
  have hlocks := (World.exec_db hexec).1
  refine ⟨respects_quiet hinv hexec hprompt hlocks rfl, ?_⟩
  have hfree := (hw.stable hv).quiet hlocks rfl
    (settles_observe hexec (hinv.2 hprompt.1) hprompt iid)
  cases answer with
  | error e => exact hfree
  | ok found =>
      refine ⟨hfree, fun item hitem ↦ ⟨hfree, fun n iid' hread ↦ ?_⟩⟩
      have hread : (v.source iid).map (fun completion ↦ (completion, iid)) = some (n, iid') :=
        (nextReading_getQueueItem settings.gitlabProjectId iid found).symm.trans hread
      obtain ⟨m, hsource, heq⟩ := Option.map_eq_some_iff.mp hread
      cases heq
      refine ⟨rfl, fun htold ↦ (hw.stable hv).2 n htold hsource, fun _ ↦ ?_⟩
      have hdb : world.db = v.world.db ∧ found = v.world.db.selectQueueItem
          settings.gitlabProjectId iid := by
        rcases (World.exec_db hexec).2.2 with ⟨-, e, he⟩ | ⟨a, hdb, hanswer⟩
        · cases he
        · obtain ⟨rfl, hsame⟩ := Prod.mk.inj (Except.ok.inj hdb)
          rcases hanswer with hanswer | ⟨e, he⟩
          · exact ⟨hsame.symm, Except.ok.inj hanswer⟩
          · cases he
      obtain ⟨row, hrow, rfl⟩ := Option.map_eq_some_iff.mp (hdb.2.symm.trans hitem)
      simp only [World.pendingFeedback, observe, hdb.1, hrow, Option.bind_some]
      rfl

/-- A comment that fails tells nobody, and one that arrives tells who was not told before. -/
theorem safe_comment {context : Context} (hpending : item.pendingNotification = some pending) :
    Safe (feedbackDiscipline settings) i entry (Read settings i iid item)
      (Prog.gitlab (.addOrUpdatePinnedComment iid { status := .waiting pending.status, context }))
      (fun _ ↦ Sent settings i iid pending) fun _ ↦ Free settings i iid := by
  refine Safe.call fun s w v hw hv hinv choice answer v' hcall hprompt ↦ ?_
  obtain ⟨world, hexec, rfl⟩ := exec_eq_some hcall
  have hread := hw.stable hv
  have hdb := World.exec_db_eq hexec fun q ↦ Op.noConfusion
  have hlocks := World.exec_locks_eq hexec (fun _ ↦ Op.noConfusion) fun _ ↦ Op.noConfusion
  have hsettles := settles_observe hexec (hinv.2 hprompt.1) hprompt iid
  cases answer with
  | error e =>
      exact ⟨respects_quiet hinv hexec hprompt hlocks rfl, hread.1.quiet hlocks rfl hsettles⟩
  | ok done =>
      rcases nextTold_comment v i iid context pending.status
        with htold | ⟨n, iid', hreading, htold⟩
      · refine ⟨respects_quiet hinv hexec hprompt hlocks htold,
          (holds_observe hlocks).mpr hread.1.1, fun n hn hsource ↦ ?_⟩
        rw [mem_told_observe htold] at hn
        exact absurd (source_of_nextSource hsource hdb) (hread.1.2 n hn)
      · obtain ⟨rfl, -, hpendingOf⟩ := hread.2 n iid' hreading
        refine ⟨respects_told hinv hprompt hdb hlocks hread hreading htold,
          (holds_observe hlocks).mpr hread.1.1, fun m hm hsource ↦ ?_⟩
        have hsource := source_of_nextSource hsource hdb
        have hm : (m, iid') ∈ (n, iid') :: v.told := htold ▸ hm
        rcases List.mem_cons.mp hm with heq | hm
        · cases heq
          refine ⟨?_, hreading⟩
          have hsame : world.pendingFeedback settings iid' =
              v.world.pendingFeedback settings iid' := by
            rw [World.pendingFeedback, World.pendingFeedback, hdb]
          exact hsame.trans ((hpendingOf hsource).trans hpending)
        · exact absurd hsource (hread.1.2 m hm)

theorem pendingFeedback_clear {projectId : ℕ} {db : Database} :
    ((clearPendingNotification projectId iid pending db).row projectId iid).bind
      MergeRequestRow.pendingNotification ≠ some pending := by
  unfold clearPendingNotification Database.row
  rw [KeyedTable.byKey_updateWhere]
  cases hrow : db.mergeRequests.byKey (projectId, iid) with
  | none => simp
  | some r =>
      have hkey := KeyedTable.key_of_byKey hrow
      simp only [key_mergeRequestRow, Prod.mk.injEq] at hkey
      by_cases hpending : r.pendingNotification = some pending
      · simp [hkey, hpending]
      · simp [hpending]

/-- Clearing the feedback that was sent frees the merge request. -/
theorem safe_clear :
    Safe (feedbackDiscipline settings) i entry (Sent settings i iid pending)
      (Prog.db (.clearPendingNotification settings.gitlabProjectId iid pending))
      (fun _ ↦ Free settings i iid) fun _ ↦ Free settings i iid := by
  refine Safe.call fun s w v hw hv hinv choice answer v' hcall hprompt ↦ ?_
  obtain ⟨world, hexec, rfl⟩ := exec_eq_some hcall
  have hsent := hw.stable hv
  have hlocks := (World.exec_db hexec).1
  have hsettles := settles_observe hexec (hinv.2 hprompt.1) hprompt iid
  refine ⟨respects_quiet hinv hexec hprompt hlocks rfl, ?_⟩
  have hstill : ∀ n, (n, iid) ∈ v.told →
      v.nextSource settings i (.db (.clearPendingNotification settings.gitlabProjectId iid pending))
        world iid = some n →
        world.pendingFeedback settings iid = some pending ∧ answer.isOk = true := by
    intro n hn hsource
    rcases hsettles with ⟨hsame, hsource'⟩ | hother
    · obtain ⟨hpending, hreading⟩ := hsent.2 n hn (hsource' ▸ hsource)
      exact ⟨hsame.trans hpending, hprompt.2 _ hreading hn⟩
    · exact absurd hn (of_informed_eq_false (hother n hsource)).1
  have hfree : Free settings i iid s
      (v.observe settings i
        (.db (.clearPendingNotification settings.gitlabProjectId iid pending)) answer world) := by
    refine ⟨(holds_observe hlocks).mpr hsent.1, fun n hn hsource ↦ ?_⟩
    obtain ⟨hpending, hok⟩ := hstill n hn hsource
    rcases (World.exec_db hexec).2.2 with ⟨-, e, rfl⟩ | ⟨a, hdb, -⟩
    · cases hok
    · obtain ⟨-, hdb⟩ := Prod.mk.inj (Except.ok.inj hdb)
      rw [World.pendingFeedback, ← hdb] at hpending
      exact pendingFeedback_clear hpending
  cases answer <;> exact hfree

theorem safe_withLock {body : Prog Unit}
    (h : Safe (feedbackDiscipline settings) i entry (Free settings i iid) body
      (fun _ ↦ Free settings i iid) fun _ ↦ Free settings i iid) :
    Safe (feedbackDiscipline settings) i entry (fun _ _ ↦ True)
      (Prog.withLock (.notification settings.gitlabProjectId iid) body) (fun _ _ _ ↦ True)
      fun _ _ _ ↦ True := by
  have hacquire : Safe (feedbackDiscipline settings) i entry (fun _ _ ↦ True)
      (Prog.await (.acquire (.notification settings.gitlabProjectId iid)))
      (fun _ ↦ Free settings i iid) fun _ _ _ ↦ True := by
    refine Safe.call fun s w v _ _ hinv choice answer v' hcall hprompt ↦ ?_
    obtain ⟨world, hexec, rfl⟩ := exec_eq_some hcall
    rcases World.exec_acquire hexec with ⟨rfl, e, rfl⟩ | ⟨rfl, hfree, rfl⟩
    · exact ⟨respects_quiet hinv hexec hprompt rfl rfl, trivial⟩
    · refine ⟨respects_acquire hinv hprompt hfree, List.mem_cons_self, fun n hn ↦ ?_⟩
      exact fun hsource ↦ not_told_of_held (hinv.2 hprompt.1) hfree hn
        (source_of_nextSource hsource rfl)
  have hrelease : Safe (feedbackDiscipline settings) i entry (Free settings i iid)
      (Prog.await (.release (.notification settings.gitlabProjectId iid)))
      (fun _ _ _ ↦ True) fun _ _ _ ↦ True := by
    refine Safe.call fun s w v hw hv hinv choice answer v' hcall hprompt ↦ ?_
    obtain ⟨world, hexec, rfl⟩ := exec_eq_some hcall
    cases hexec
    exact ⟨respects_release hinv hprompt (hw.stable hv), trivial⟩
  exact hacquire.bind fun _ ↦ h.ensuring (fun _ ↦ hrelease) fun _ ↦ hrelease

end Rules

/-! ### The tasks -/

section Tasks

variable {iid : ℕ} {pending : PendingNotification}

theorem safe_sendNotification {item : QueueItem} {context : Context}
    (hpending : item.pendingNotification = some pending) :
    Safe (feedbackDiscipline settings) i entry (Read settings i iid item)
      (MRNotifier.sendNotification iid (.waiting pending.status) context)
      (fun _ ↦ Sent settings i iid pending) fun _ ↦ Free settings i iid := by
  unfold MRNotifier.sendNotification Comment.render
  cases (Comment.required (.waiting pending.status)).find? fun key ↦
      (context.lookup key).isNone with
  | some key => exact Safe.throw fun s w h ↦ h.1
  | none => exact safe_comment hpending

/-- A drain tells the merge request under its lock and leaves nothing pending that was told. -/
theorem safe_notifyIfQueued (context : Context) :
    Safe (feedbackDiscipline settings) i entry (fun _ _ ↦ True)
      (MRNotifier.notifyIfQueued settings iid (.waiting pending.status) context (some pending))
      (fun _ _ _ ↦ True) fun _ _ _ ↦ True := by
  refine safe_withLock (safe_getQueueItem.bind fun found ↦ ?_)
  cases found with
  | none => exact Safe.ret fun _ _ h ↦ h.1
  | some item =>
      have hread : ∀ s (w : (feedbackSystem settings).World), (Free settings i iid s w ∧
          ∀ found ∈ some item, Read settings i iid found s w) → Read settings i iid item s w :=
        fun _ _ h ↦ h.2 item rfl
      simp only
      split_ifs with hother hqueued
      · exact Safe.ret fun s w h ↦ h.1
      · exact (safe_db_free _).mono (fun s w h ↦ h.1) (fun _ _ _ h ↦ h) fun _ _ _ h ↦ h
      · have hpending : item.pendingNotification = some pending := by simpa using hother
        refine Safe.mono (safe_getActiveQueue _ |>.bind fun queue ↦ ?_) hread (fun _ _ _ h ↦ h)
          fun _ _ _ h ↦ h
        split
        · exact Safe.ret fun _ _ h ↦ h.1
        · exact (safe_sendNotification hpending).bind fun _ ↦ safe_clear

theorem safe_retryItem (item : QueueItem) :
    Safe (feedbackDiscipline settings) i entry (fun _ _ ↦ True)
      (QueuePositionNotifier.retryItem settings item) (fun _ _ _ ↦ True) fun _ _ _ ↦ True := by
  unfold QueuePositionNotifier.retryItem
  cases item.pendingNotification with
  | none => exact Safe.ret fun _ _ h ↦ h
  | some pending =>
      refine (safe_notifyIfQueued _).handle fun e ↦ ?_
      split_ifs
      · exact Safe.ret fun _ _ h ↦ h
      · exact Safe.throw fun _ _ h ↦ h

theorem safe_retryPending :
    Safe (feedbackDiscipline settings) i entry (fun _ _ ↦ True)
      (QueuePositionNotifier.retryPending settings) (fun _ _ _ ↦ True) fun _ _ _ ↦ True :=
  (safe_db _).bind fun _ ↦ Safe.forEach fun item _ ↦ safe_retryItem item

theorem safe_broadcast :
    Safe (feedbackDiscipline settings) i entry (fun _ _ ↦ True) (broadcast settings)
      (fun _ _ _ ↦ True) fun _ _ _ ↦ True := by
  unfold broadcast
  split_ifs
  · refine Safe.call fun s w v _ _ hinv choice answer v' hcall hprompt ↦ ?_
    obtain ⟨world, hexec, rfl⟩ := exec_eq_some hcall
    have hlocks := World.exec_locks_eq hexec (fun _ ↦ Op.noConfusion) fun _ ↦ Op.noConfusion
    refine ⟨respects_quiet hinv hexec hprompt hlocks rfl, ?_⟩
    cases answer <;> trivial
  · exact Safe.ret fun _ _ h ↦ h

theorem safe_finalize (item : QueueItem) (payload : CompletionPayload) :
    Safe (feedbackDiscipline settings) i entry (fun _ _ ↦ True)
      (QueueCompletion.finalize settings item payload) (fun _ _ _ ↦ True) fun _ _ _ ↦ True := by
  refine (safe_db _).bind fun done ↦ ?_
  cases done with
  | false => exact Safe.ret fun _ _ h ↦ h
  | true =>
      simp only [if_true, QueueCompletion.afterCompletion]
      split_ifs
      · exact ((safe_db _).bind fun _ ↦ safe_retryPending).bind fun _ ↦ safe_broadcast
      · exact safe_broadcast

theorem safe_body (task : FeedbackTask) :
    Safe (feedbackDiscipline settings) i entry (fun _ _ ↦ True) (task.body settings)
      (fun _ _ _ ↦ True) fun _ _ _ ↦ True := by
  cases task with
  | finalize item payload => exact safe_finalize item payload
  | drain => exact safe_retryPending
  | transaction op => exact (safe_db op).bind fun _ ↦ Safe.ret fun _ _ h ↦ h

end Tasks

end Delivery

/-! ## One comment per completion -/

/-- The start of a run on a database. -/
def feedbackStart (settings : Settings) (db : Database) : Config (feedbackSystem settings) where
  world := ({ world := { db } } : CommentedWorld)

def told {settings : Settings} (c : Config (feedbackSystem settings)) : List (ℕ × ℕ) :=
  CommentedWorld.told c.world

section Runs

open CommentedWorld

variable {settings : Settings}

theorem consistent_start (db : Database) :
    ({ world := { db } } : CommentedWorld).Consistent settings where
  exclusive _ _ _ h := (List.not_mem_nil h).elim
  told_lt _ _ h := (List.not_mem_nil h).elim
  reading_lt _ _ _ h := by cases h
  source_lt _ _ h := by cases h
  finalized_lt _ _ h := by cases h
  acknowledging _ _ h := (List.not_mem_nil h).elim

theorem CommentedWorld.Consistent.restart {w : CommentedWorld} (hc : w.Consistent settings)
    (h : ∀ n iid, (n, iid) ∈ w.told → w.source iid ≠ some n) :
    w.restart.Consistent settings where
  exclusive _ _ _ h := (List.not_mem_nil h).elim
  told_lt := hc.told_lt
  reading_lt _ _ _ h := by cases h
  source_lt := hc.source_lt
  finalized_lt _ _ h := by cases h
  acknowledging n iid hn hsource := absurd hsource (h n iid hn)

theorem sustained (settings : Settings) : (feedbackDiscipline settings).Sustained where
  arrive _ w hw := ⟨hw, fun i ↦ Others.refl settings i w⟩
  body task _ w _ := Delivery.safe_body task {} w trivial
  crash w hw := by
    refine ⟨hw.1, fun h ↦ ?_⟩
    obtain ⟨hbefore, hnone⟩ := Bool.or_eq_false_iff.mp h
    refine (hw.2 hbefore).restart fun n iid hn hsource ↦ ?_
    have hentry := List.any_eq_false.mp hnone _ hn
    simp [hsource] at hentry

theorem overwritesNothing_of_event {c : Config (feedbackSystem settings)}
    {moves : List (Move (feedbackSystem settings))} {e : Event (feedbackSystem settings)}
    (he : e ∈ c.events moves) : OverwritesNothing e := by
  obtain ⟨choice, hcall⟩ := Config.exec_of_mem_events he
  obtain ⟨i, entry, s, op, answer, before, after⟩ := e
  obtain ⟨world, hexec, hafter⟩ := Delivery.exec_eq_some hcall
  clear he hcall
  simp only at hexec hafter
  subst hafter
  cases op with
  | db q =>
      have hdb := (World.exec_db hexec).2.2
      cases q with
      | finalizeCompletion projectId item payload =>
          rcases hdb with ⟨hdb, -⟩ | ⟨done, hdb, -⟩
          · exact KeepsPending.of_eq hdb
          · exact finalizeCompletion_keeps hdb
      | stageCompletionPositions projectId positions oldTotal =>
          rcases hdb with ⟨hdb, -⟩ | ⟨done, hdb, -⟩
          · exact KeepsPending.of_eq hdb
          · obtain ⟨-, hdb⟩ := Prod.mk.inj (Except.ok.inj hdb)
            have hkeeps : KeepsPending none (CommentedWorld.world before).db world.db := by
              rw [← hdb]
              exact stageCompletionPositions_keeps
            exact hkeeps
      | _ => trivial
  | _ => trivial

end Runs

/-- In a run whose steps are prompt nobody is told twice, and no pending feedback is overwritten. -/
theorem told_once_of_prompt (settings : Settings) (db : Database)
    (moves : List (Move (feedbackSystem settings)))
    (hprompt : ∀ e ∈ (feedbackStart settings db).events moves, Prompt e) :
    (told ((feedbackStart settings db).run moves)).Nodup ∧
      ∀ e ∈ (feedbackStart settings db).events moves, OverwritesNothing e := by
  have hstart : (feedbackStart settings db).Safe (feedbackDiscipline settings) :=
    ⟨⟨List.nodup_nil, fun _ ↦ consistent_start db⟩, by simp [feedbackStart]⟩
  exact ⟨(hstart.run (sustained settings) hprompt).2.inv.1,
    fun e he ↦ overwritesNothing_of_event he⟩

instance (settings : Settings) (e : Event (feedbackSystem settings)) : Decidable (Prompt e) := by
  unfold Prompt
  refine @instDecidableAnd _ _ _ ?_
  split <;> infer_instance

/-! ## A drain between the two stagings -/

def finishingPayload : CompletionPayload where
  queueId := 1
  request :=
    { state := .merged
      notificationStatus := .merged
      context := []
      outcome := { historyStatus := .merged }
      positions := [(8, 2)]
      oldTotal := 2 }
  history := historyParams (rowToQueueItem sampleRow) { historyStatus := .merged } 0
  finishedAt := 0
  commentSent := true
  labelsRemoved := true
  labelEvents := []
  consumedAdmissions := []

/-- The merge request 7 is merged and the merge request 8 waits behind it. -/
def finishingDatabase : Database where
  mergeRequests :=
    (insertMr sampleDatabase { sampleParams with iid := 8 } false false 1).mergeRequests.updateWhere
      (fun r ↦ r.iid = 7)
      fun r ↦ { r with status := .merged, pendingCompletion := some finishingPayload }
  history := .empty

def finishingItem : QueueItem :=
  rowToQueueItem
    { sampleRow with status := .merged, pendingCompletion := some finishingPayload }

def quietChoice : Choice where
  gitlab := answersFor (waitingMr 8)

/-- The steps of the completion, with `between` steps of a drain before the second staging. -/
def completionMoves (between : ℕ) :
    List (Move (feedbackSystem { gitlabProjectId := 1, rounds := 1 })) :=
  let steps (thread n : ℕ) : List (Move (feedbackSystem { gitlabProjectId := 1, rounds := 1 })) :=
    List.replicate n (.step thread quietChoice)
  [.start (.finalize finishingItem finishingPayload), .start .drain] ++ steps 0 1 ++
    steps 1 between ++ steps 0 9 ++ steps 1 7

theorem told_once_of_prompt_after :
    (told ((feedbackStart { gitlabProjectId := 1, rounds := 1 } finishingDatabase).run
      (completionMoves 0))).Nodup ∧
      ∀ e ∈ (feedbackStart { gitlabProjectId := 1, rounds := 1 } finishingDatabase).events
        (completionMoves 0), OverwritesNothing e :=
  told_once_of_prompt _ _ _ (by decide +kernel)

/-- A drain delivers between the two stagings, and the merge request is told twice. -/
theorem told_twice_by_early_drain :
    ¬ ∀ (settings : Settings) (db : Database) (moves : List (Move (feedbackSystem settings))),
      (told ((feedbackStart settings db).run moves)).Nodup ∧
        ∀ e ∈ (feedbackStart settings db).events moves, OverwritesNothing e := by
  intro h
  have honce := (h { gitlabProjectId := 1, rounds := 1 } finishingDatabase (completionMoves 7)).1
  have htwice : told ((feedbackStart { gitlabProjectId := 1, rounds := 1 } finishingDatabase).run
      (completionMoves 7)) = [(0, 8), (0, 8)] := by decide +kernel
  rw [htwice] at honce
  exact absurd honce (by decide)

end MergeQueue
