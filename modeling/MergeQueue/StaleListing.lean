import MergeQueue.RequeueTransfer
import MergeQueue.RowCells
import MergeQueue.Scheduler
import MergeQueue.SyncConvergence
import MergeQueue.Lib.RelyGuarantee

/-!
# A sync among finishing completions

The sync compares a listing of GitLab with a later read of the queue, and acts on each
merge request later still.  A watch follows which merge requests it may still add or
remove on the word of what it read.
-/

namespace MergeQueue

open Interleave (Discipline Event Program System Task Turn)
open Interleave.Program (Leaves Safe)

/-! ## What a step does to the rows of a project -/

section Rows

variable (projectId : ℕ)

/-- The merge requests whose row is gone, taken by a completion or left without another one. -/
def endedMrs (db db' : Database) : List ℕ :=
  (db.mergeRequests.rows.filter fun r ↦
    r.projectId = projectId && !db'.mergeRequests.rows.any (·.id = r.id) &&
      (r.pendingCompletion.isSome || (db'.row projectId r.iid).isNone)).map (·.iid)

/-- The merge requests that have a new row. -/
def createdMrs (db db' : Database) : List ℕ :=
  (db'.mergeRequests.rows.filter fun r ↦
    r.projectId = projectId && !db.mergeRequests.rows.any (·.id = r.id)).map (·.iid)

end Rows

/-! ## The watch -/

/-- How far the sync has come. -/
inductive SyncStage
  | listing (listings : ℕ)
  | comparing
  | over
  deriving DecidableEq, Repr

/-- What the sync holds: the merge requests that a listing names and that it has not yet compared
with the queue, the one that it has just found orphaned, the identity of the next row when it read
the queue, and the merge requests whose lifecycle ended since it began. -/
structure Watch where
  stage : SyncStage := .listing 0
  listed : List ℕ := []
  orphan : Option ℕ := none
  nextRow : ℕ := 0
  finished : List ℕ := []
  deriving DecidableEq, Repr

/-- The labels put the merge request into the queue, and it is open. -/
def MergeRequest.triggered (settings : Settings) (mr : MergeRequest) : Bool :=
  mr.state = .opened &&
    (mr.labels.contains settings.queueLabel || mr.labels.contains settings.hotfixLabel)

/-- GitLab's answer to the check of an orphan: that it is none, or that it is one. -/
def orphaned (settings : Settings) : Except PyError MergeRequest → Option Bool
  | .ok mr => some !mr.triggered settings
  | .error e => if e.isKind .notFound then some true else none

namespace Watch

/-- The merge request `iid` is compared with the queue. -/
def compared (watch : Watch) (iid : ℕ) : Watch :=
  { watch with listed := watch.listed.filter (· ≠ iid) }

/-- The sync raised. -/
def abandon (watch : Watch) : Watch :=
  if watch.stage = .listing 0 then watch
  else { watch with stage := .over, listed := [], orphan := none }

def list (watch : Watch) (mrs : List MergeRequest) : Watch :=
  match watch.stage with
  | .listing n =>
      { watch with
        stage := .listing (n + 1)
        listed := watch.listed ++ mrs.map MergeRequest.iid }
  | _ => watch

/-- The second read of the queue follows both listings. -/
def compare (watch : Watch) (db : Database) (items : List QueueItem) : Watch :=
  if watch.stage = .listing 2 then
    { watch with
      stage := .comparing
      listed := watch.listed.filter fun iid ↦ !(items.map QueueItem.mrIid).contains iid
      nextRow := db.mergeRequests.nextId }
  else watch

/-- What the sync holds after its operation `op`. -/
def observe (settings : Settings) (db : Database) (watch : Watch) :
    (op : Op) → Except PyError op.Answer → Watch
  | .gitlab (.getMr iid _), answer =>
      match orphaned settings answer with
      | some isOrphan =>
          if watch.stage = .comparing then
            { watch with orphan := if isOrphan then some iid else none }
          else watch
      | none => watch.abandon
  | .gitlab (.listMrsWithLabel _), .ok mrs => watch.list mrs
  | .db (.getActiveQueue _), .ok items => watch.compare db items
  | .db (.getQueueItem _ iid), .ok found =>
      if (found : Option QueueItem).any fun item ↦ item.pendingCompletion.isSome then
        watch.compared iid
      else watch
  | .db (.addToQueue _ mr _), .ok _ => watch.compared mr.iid
  | .db (.removeFromQueue ..), .ok _ => { watch with orphan := none }
  | _, .ok _ => watch
  | _, .error _ => watch.abandon

def finish (watch : Watch) (iids : List ℕ) : Watch :=
  { watch with finished := watch.finished ++ iids }

end Watch

structure WatchedWorld where
  world : World
  watch : Watch := {}

section System

variable (settings : Settings)

/-- The world after a step, with the lifecycles that it ended. -/
def WatchedWorld.become (w : WatchedWorld) (watch : Watch) (world : World) : WatchedWorld where
  world := world
  watch := watch.finish (endedMrs settings.gitlabProjectId w.world.db world.db)

/-- The sync, as the task number 0. -/
def syncSystem : System Op Op.Answer Local PyError where
  World := WatchedWorld
  Choice := Choice
  Entry := Unit
  exec thread choice op w :=
    (World.exec settings.qm thread choice op w.world).map fun out ↦
      (out.1, w.become settings (w.watch.observe settings w.world.db op out.1) out.2)
  body := fun _ ↦ do
    let _ ← QueueScheduler.syncQueue settings
  init := fun _ ↦ {}
  arrive := fun _ w ↦ w
  crash := fun w ↦ w

/-- The sync takes a step, or another task has an operation performed. -/
inductive SyncMove
  | sync (choice : Choice)
  | other (thread : ℕ) (choice : Choice) (op : Op)

/-- What an operation of another task leaves. -/
def otherStep (thread : ℕ) (choice : Choice) (op : Op) (w : WatchedWorld) : WatchedWorld :=
  match World.exec settings.qm (thread + 1) choice op w.world with
  | some (_, world) => w.become settings w.watch world
  | none => w

def SyncMove.turn : SyncMove → Turn (syncSystem settings)
  | sync choice => .own choice
  | other thread choice op => .others (otherStep settings thread choice op)

/-- The operations of a sync that starts in `world`. -/
def syncEvents (world : World) (moves : List SyncMove) : List (Event (syncSystem settings)) :=
  Task.eventsAmong 0 () (moves.map (SyncMove.turn settings))
    ((syncSystem settings).body () {}) { world }

/-- GitLab lists no merge request whose lifecycle ended, for its labels were taken away before and
nobody added them again; and it knows the trigger of one that was queued since the sync read the
queue. -/
def tellsTruly (e : Event (syncSystem settings)) : Prop :=
  match e.op, e.answer with
  | .gitlab (.listMrsWithLabel _), .ok mrs =>
      ∀ mr ∈ (mrs : List MergeRequest), mr.iid ∉ e.before.watch.finished
  | .gitlab (.getMr iid _), answer =>
      orphaned settings answer = some true → e.before.watch.stage = .comparing →
        ∀ r ∈ e.before.world.db.row settings.gitlabProjectId iid, r.id < e.before.watch.nextRow
  | _, _ => True

/-- Another task ends no lifecycle of a merge request that the sync found listed and has not yet
compared with the queue, and creates no row for one that the sync found orphaned and has not yet
removed. -/
def leavesAlone (w w' : WatchedWorld) : Prop :=
  (∀ iid ∈ endedMrs settings.gitlabProjectId w.world.db w'.world.db, iid ∉ w.watch.listed) ∧
    ∀ iid ∈ createdMrs settings.gitlabProjectId w.world.db w'.world.db, iid ∉ w.watch.orphan

/-- The others leave the sync's merge requests alone, and GitLab tells the truth. -/
def SyncUndisturbed (world : World) (moves : List SyncMove) : Prop :=
  Task.Among 0 () (leavesAlone settings) (tellsTruly settings)
    (moves.map (SyncMove.turn settings)) ((syncSystem settings).body () {}) { world }

/-- The sync adds no merge request whose lifecycle ended since it began, and its removals change
no row that is newer than its read of the queue. -/
def resurrectsNothing (e : Event (syncSystem settings)) : Prop :=
  match e.op with
  | .db (.addToQueue ..) =>
      ∀ iid ∈ createdMrs settings.gitlabProjectId e.before.world.db e.after.world.db,
        iid ∉ e.before.watch.finished
  | .db (.removeFromQueue ..) =>
      ∀ r ∈ e.before.world.db.mergeRequests.rows, r ∉ e.after.world.db.mergeRequests.rows →
        r.id < e.before.watch.nextRow
  | _ => True

end System

/-! ## Operations beside the comparison -/

/-- The operation neither lists merge requests, nor checks, adds or removes one. -/
def Op.aside : Op → Bool
  | gitlab (.listMrsWithLabel _) | gitlab (.getMr ..) => false
  | db (.addToQueue ..) | db (.removeFromQueue ..) => false
  | _ => true

theorem Op.aside_of_delivers {op : Op} (h : op.delivers = true) : op.aside = true := by
  unfold Op.delivers at h
  split at h <;> first | rfl | cases h

/-- A program of operations beside the comparison. -/
abbrev Prog.Aside {α : Type} (p : Prog α) : Prop := p.Leaves fun op ↦ op.aside = true

theorem Prog.aside_await {op : Op} (h : op.aside = true) : Aside (await op) := leaves_await h

theorem Prog.Delivers.aside {α : Type} {p : Prog α} (h : p.Delivers) : p.Aside :=
  Leaves.mono h fun _ ↦ Op.aside_of_delivers

namespace QueueCompletion

variable {settings : Settings} {item : QueueItem} {payload : CompletionPayload}

theorem aside_saveProgress :
    (saveProgress settings item payload).Aside :=
  Prog.aside_await rfl

theorem aside_deliverComment :
    (deliverComment settings item payload).Aside := by
  unfold deliverComment
  split_ifs
  · exact Leaves.ret _
  · have hcomment : (MRNotifier.notify settings item.mrIid
        (.outcome payload.request.notificationStatus) payload.request.context).Aside :=
      Prog.leaves_withLock rfl rfl (MRNotifier.sendNotification_leaves rfl)
    exact hcomment.bind fun _ ↦ aside_saveProgress.bind fun _ ↦ Leaves.ret _

theorem aside_recordLabelEvent (eventAt : Option ℤ) :
    (recordLabelEvent settings item payload eventAt).Aside :=
  aside_saveProgress.bind fun _ ↦ Leaves.ret _

theorem aside_mutateLabels (action : LabelAction) (triggers : List String) :
    (mutateLabels settings item payload action triggers).Aside := by
  refine Leaves.bind ?_ fun out ↦ ?_
  · unfold labelOperation
    split
    · exact Leaves.ret _
    · have hactor : (MRNotifier.completionActor settings).Aside :=
        (Prog.aside_await rfl).bind fun _ ↦ Leaves.ret _
      exact hactor.bind fun _ ↦ (Prog.aside_await rfl).bind fun _ ↦
        aside_saveProgress.bind fun _ ↦ Leaves.ret _
  · cases action with
    | restore =>
        exact Leaves.bind ((Prog.aside_await rfl).bind fun _ ↦ Leaves.ret _) fun _ ↦ Leaves.ret _
    | remove =>
        refine Leaves.bind (Leaves.handle ?_ fun e ↦ ?_) fun _ ↦ Leaves.ret _
        · exact (Prog.aside_await rfl).bind fun _ ↦ Leaves.ret _
        · split_ifs
          · exact Leaves.ret _
          · exact Leaves.throw _
          · exact Leaves.ret _

theorem aside_cleanup : (cleanup settings item payload).Aside := by
  unfold cleanup
  split_ifs
  · exact (aside_mutateLabels _ _).bind fun _ ↦ aside_recordLabelEvent _
  · exact Leaves.ret _

theorem aside_settleRequeue (request : Option Requeue) :
    (settleRequeue settings item payload request).Aside := by
  unfold settleRequeue
  split
  · exact Leaves.ret _
  · split_ifs
    · exact (aside_mutateLabels _ _).bind fun _ ↦ aside_recordLabelEvent _
    · split
      · exact Leaves.throw _
      · exact (aside_mutateLabels _ _).bind fun _ ↦ aside_recordLabelEvent _

theorem aside_afterCompletion :
    (afterCompletion settings payload).Aside := by
  have hbroadcast : (broadcast settings).Aside := by
    unfold broadcast
    split_ifs
    · exact Prog.aside_await rfl
    · exact Leaves.ret _
  unfold afterCompletion
  split_ifs
  · refine Leaves.bind ?_ fun _ ↦ hbroadcast
    exact (Prog.aside_await rfl).bind fun _ ↦
      Prog.Delivers.aside QueuePositionNotifier.delivers_retryPending
  · exact hbroadcast

theorem aside_finish : (finish settings item).Aside := by
  unfold finish
  cases item.pendingCompletion with
  | none => exact Leaves.throw _
  | some payload =>
      refine aside_deliverComment.bind fun payload ↦ aside_cleanup.bind fun payload ↦ ?_
      refine (Prog.aside_await rfl).bind fun found ↦ ?_
      cases found with
      | none => exact Leaves.ret _
      | some current =>
          simp only
          split_ifs
          · refine (aside_settleRequeue _).bind fun payload ↦ ?_
            refine (Prog.aside_await rfl).bind fun done ↦ ?_
            cases done with
            | false => exact Leaves.ret _
            | true => exact aside_afterCompletion
          · exact Leaves.ret _

theorem aside_recoverAll : (recoverAll settings).Aside := by
  refine (Prog.aside_await rfl).bind fun pending ↦ ?_
  refine (Leaves.forEach fun item _ ↦ Leaves.handle ?_ fun e ↦ ?_).bind fun _ ↦ Leaves.ret _
  · refine Prog.leaves_withLock rfl rfl ((Prog.aside_await rfl).bind fun found ↦ ?_)
    cases found with
    | none => exact Leaves.ret _
    | some item =>
        simp only
        split_ifs
        · exact aside_finish
        · exact Leaves.ret _
  · split_ifs
    · exact Leaves.ret _
    · exact Leaves.throw _

end QueueCompletion

namespace QueueScheduler

variable {settings : Settings}

theorem aside_broadcastQueueUpdate :
    (broadcastQueueUpdate settings).Aside := by
  unfold broadcastQueueUpdate
  split_ifs
  · refine Leaves.handle ?_ fun e ↦ ?_
    · exact (Prog.aside_await rfl).bind fun _ ↦ Prog.aside_await rfl
    · split_ifs
      · exact Leaves.ret _
      · exact Leaves.throw _
  · exact Leaves.ret _

theorem aside_finalizeSync (stats : SyncStats) :
    (finalizeSync settings stats).Aside := by
  have hread : Prog.Aside
      (Prog.db (.getActiveQueue settings.gitlabProjectId)) := Prog.aside_await rfl
  unfold finalizeSync
  split_ifs
  · exact aside_broadcastQueueUpdate.bind fun _ ↦ hread.bind fun _ ↦ Leaves.ret _
  · exact hread.bind fun _ ↦ Leaves.ret _

theorem aside_refreshListedMr (queueMrIids : List ℕ) (revisions : List (ℕ × ℕ × ℕ))
    (mr : MergeRequest) :
    (refreshListedMr settings queueMrIids revisions mr).Aside := by
  unfold refreshListedMr
  split_ifs
  · split
    · exact Leaves.ret _
    · refine refresh_leaves.mono fun op hop ↦ ?_
      rcases hop with rfl | rfl | rfl | ⟨-, hdelivers⟩ | ⟨_, _, _, _, -, -, rfl⟩
      · rfl
      · rfl
      · rfl
      · exact Op.aside_of_delivers hdelivers
      · rfl
  · exact Leaves.ret _

theorem aside_retryPending :
    (QueueMetadataUpdater.retryPending settings).Aside := by
  unfold QueueMetadataUpdater.retryPending
  split_ifs
  · exact Prog.Delivers.aside QueuePositionNotifier.delivers_retryPending
  · exact Leaves.ret _

end QueueScheduler

/-! ## Rows that appear and vanish -/

section Rows

variable {projectId iid : ℕ} {db db' : Database}

theorem mem_endedMrs : iid ∈ endedMrs projectId db db' ↔
    ∃ r ∈ db.mergeRequests.rows, r.projectId = projectId ∧
      (∀ s ∈ db'.mergeRequests.rows, s.id ≠ r.id) ∧
      (r.pendingCompletion.isSome = true ∨ db'.row projectId r.iid = none) ∧ r.iid = iid := by
  simp only [endedMrs, List.mem_map, List.mem_filter, Bool.and_eq_true, Bool.or_eq_true,
    decide_eq_true_eq, Bool.not_eq_true', List.any_eq_false, Option.isNone_iff_eq_none]
  constructor
  · rintro ⟨r, ⟨hr, ⟨hproject, hgone⟩, hended⟩, hiid⟩
    exact ⟨r, hr, hproject, hgone, hended, hiid⟩
  · rintro ⟨r, hr, hproject, hgone, hended, hiid⟩
    exact ⟨r, ⟨hr, ⟨hproject, hgone⟩, hended⟩, hiid⟩

theorem mem_createdMrs : iid ∈ createdMrs projectId db db' ↔
    ∃ r ∈ db'.mergeRequests.rows, r.projectId = projectId ∧
      (∀ s ∈ db.mergeRequests.rows, s.id ≠ r.id) ∧ r.iid = iid := by
  simp only [createdMrs, List.mem_map, List.mem_filter, Bool.and_eq_true, decide_eq_true_eq,
    Bool.not_eq_true', List.any_eq_false]
  constructor
  · rintro ⟨r, ⟨hr, hproject, hnew⟩, hiid⟩
    exact ⟨r, hr, hproject, hnew, hiid⟩
  · rintro ⟨r, hr, hproject, hnew, hiid⟩
    exact ⟨r, ⟨hr, hproject, hnew⟩, hiid⟩

@[simp] theorem endedMrs_self (projectId : ℕ) (db : Database) : endedMrs projectId db db = [] := by
  refine List.eq_nil_iff_forall_not_mem.mpr fun iid hiid ↦ ?_
  obtain ⟨r, hr, -, hgone, -⟩ := mem_endedMrs.mp hiid
  exact hgone r hr rfl

variable {qm : QueueManager} {now : ℤ} {tokens : ℕ → Uuid}

/-- A row that is gone is one that the call may delete. -/
theorem exists_deletes_of_mem_endedMrs {op : QueueOp} {answer : op.Answer}
    (h : op.exec qm now tokens db = .ok (answer, db')) (hiid : iid ∈ endedMrs projectId db db') :
    ∃ r ∈ db.mergeRequests.rows, op.Deletes r ∧ r.iid = iid := by
  obtain ⟨r, hr, -, hgone, -, rfl⟩ := mem_endedMrs.mp hiid
  by_cases hdeletes : op.Deletes r
  · exact ⟨r, hr, hdeletes, rfl⟩
  · obtain ⟨r', hr', hid, -⟩ := QueueOp.exec_row h hr hdeletes
    exact absurd hid (hgone r' hr')

/-- The row of a merge request without a new row is the one that it had. -/
theorem exists_row_of_not_mem_createdMrs {op : QueueOp} {answer : op.Answer}
    (h : op.exec qm now tokens db = .ok (answer, db')) {r' : MergeRequestRow}
    (hrow : db'.row projectId iid = some r') (hcreated : iid ∉ createdMrs projectId db db') :
    ∃ r, db.row projectId iid = some r ∧ r.id = r'.id := by
  obtain ⟨hr', hkey⟩ := KeyedTable.byKey_eq_some_iff.mp hrow
  have hkey' := hkey
  simp only [key_mergeRequestRow, Prod.mk.injEq] at hkey'
  by_cases hnew : ∀ s ∈ db.mergeRequests.rows, s.id ≠ r'.id
  · exact absurd (mem_createdMrs.mpr ⟨r', hr', hkey'.1, hnew, hkey'.2⟩) hcreated
  · push Not at hnew
    obtain ⟨s, hs, hid⟩ := hnew
    obtain ⟨r, hr, hrid, hrkey, -⟩ := (QueueOp.exec_evolves h).of_rowId_lt hr'
      (lt_of_eq_of_lt hid.symm (db.mergeRequests.below s hs))
    exact ⟨r, KeyedTable.byKey_eq_some_iff.mpr ⟨hr, hrkey.symm.trans hkey⟩, hrid.symm⟩

theorem eq_of_mem_createdMrs_addToQueue {mr : MergeRequest} {isHotfix : Bool}
    {item : Option QueueItem} (h : qm.addToQueue projectId mr isHotfix now db = .ok (item, db'))
    (hiid : iid ∈ createdMrs projectId db db') : iid = mr.iid := by
  by_contra hne
  obtain ⟨r, hr, hproject, hnew, rfl⟩ := mem_createdMrs.mp hiid
  have hrow : db'.row projectId r.iid = some r :=
    KeyedTable.byKey_eq_some_iff.mpr ⟨hr, by rw [key_mergeRequestRow, hproject]⟩
  rw [row_addToQueue_of_ne h hne] at hrow
  exact hnew r (KeyedTable.mem_of_byKey hrow) rfl

end Rows

/-! ## What the sync relies on -/

section Reliance

variable {settings : Settings}

/-- No listed merge request has ended, and the orphan has no row that is newer than the read of the
queue. -/
structure WatchedWorld.Agrees (settings : Settings) (w : WatchedWorld) : Prop where
  listed : ∀ iid ∈ w.watch.listed, iid ∉ w.watch.finished
  orphan : ∀ iid ∈ w.watch.orphan, ∀ r ∈ w.world.db.row settings.gitlabProjectId iid,
    r.id < w.watch.nextRow

/-- The others only end lifecycles. -/
def OthersEnd (w v : WatchedWorld) : Prop :=
  v.watch = { w.watch with finished := v.watch.finished }

theorem OthersEnd.same {w v : WatchedWorld} (h : OthersEnd w v) : v.watch.stage = w.watch.stage ∧
    v.watch.listed = w.watch.listed ∧ v.watch.orphan = w.watch.orphan := by
  have hv : v.watch = { w.watch with finished := v.watch.finished } := h
  rw [hv]
  exact ⟨rfl, rfl, rfl⟩

variable (settings) in
def syncDiscipline : Discipline (syncSystem settings) where
  inv := WatchedWorld.Agrees settings
  rely i w v := i = 0 → OthersEnd w v
  allowed := tellsTruly settings
  good := resurrectsNothing settings
  rely_refl := fun _ _ _ ↦ rfl
  rely_trans := by
    intro i u v w huv hvw hi
    have hv := huv hi
    have hw := hvw hi
    unfold OthersEnd at hv hw ⊢
    rw [hw, hv]

theorem otherStep_relies {thread : ℕ} {choice : Choice} {op : Op} {w : WatchedWorld}
    (h : w.Agrees settings)
    (halone : leavesAlone settings w (otherStep settings thread choice op w)) :
    OthersEnd w (otherStep settings thread choice op w) ∧
      (otherStep settings thread choice op w).Agrees settings := by
  unfold otherStep at halone ⊢
  split
  · next answer world hexec =>
      rw [hexec] at halone
      obtain ⟨hended, hcreated⟩ := halone
      refine ⟨rfl, ⟨fun iid hiid hfinished ↦ ?_, fun iid hiid r hr ↦ ?_⟩⟩
      · rcases List.mem_append.mp hfinished with hold | hnew
        · exact h.listed iid hiid hold
        · exact hended iid hnew hiid
      · rcases World.exec_db_cases hexec with hsame | ⟨q, a, -, hq⟩
        · have hworld : r ∈ world.db.row settings.gitlabProjectId iid := hr
          rw [hsame] at hworld
          exact h.orphan iid hiid r hworld
        · obtain ⟨old, hold, hid⟩ := exists_row_of_not_mem_createdMrs hq hr
            fun hnew ↦ hcreated iid hnew hiid
          rw [← hid]
          exact h.orphan iid hiid old hold
  · exact ⟨rfl, h⟩

/-! ## The steps of the sync -/

variable {w w' : WatchedWorld} {choice : Choice} {op : Op} {answer : Except PyError op.Answer}
  {s : Local}

theorem exec_eq_some (h : (syncSystem settings).exec 0 choice op w = some (answer, w')) :
    ∃ world, World.exec settings.qm 0 choice op w.world = some (answer, world) ∧
      w' = w.become settings (w.watch.observe settings w.world.db op answer) world := by
  obtain ⟨⟨a, world⟩, hexec, hout⟩ := Option.map_eq_some_iff.mp h
  obtain ⟨rfl, rfl⟩ := Prod.mk.inj hout
  exact ⟨world, hexec, rfl⟩

/-- A read of the queue changes nothing. -/
theorem db_eq_of_read {q : QueueOp} {answer : Except PyError q.Answer} {world world' : World}
    (h : World.exec settings.qm 0 choice (.db q) world = some (answer, world'))
    (hread : ∀ a db', q.exec settings.qm choice.now choice.tokens world.db = .ok (a, db') →
      db' = world.db) : world'.db = world.db := by
  rcases (World.exec_db h).2.2 with ⟨hsame, -⟩ | ⟨a, hexec, -⟩
  · exact hsame
  · exact hread a world'.db hexec

/-- The sync holds nothing that another task could spoil. -/
structure Watch.Idle (watch : Watch) : Prop where
  stage : watch.stage ≠ .listing 2
  listed : watch.listed = []
  orphan : watch.orphan = none

namespace Watch

variable {watch : Watch}

theorem Idle.compared (h : watch.Idle) (iid : ℕ) : watch.compared iid = watch := by
  obtain ⟨stage, listed, orphan, nextRow, finished⟩ := watch
  obtain rfl : listed = [] := h.listed
  rfl

theorem listed_abandon (h : watch.stage = .listing 0 → watch.listed = [] ∧ watch.orphan = none) :
    watch.abandon.listed = [] ∧ watch.abandon.orphan = none := by
  unfold Watch.abandon
  split_ifs with hstage
  · exact h hstage
  · exact ⟨rfl, rfl⟩

theorem Idle.abandon (h : watch.Idle) :
    watch.abandon.Idle ∧ (watch.stage = .listing 0 → watch.abandon = watch) := by
  unfold Watch.abandon
  split_ifs with hstage
  · exact ⟨h, fun _ ↦ rfl⟩
  · exact ⟨⟨by simp, rfl, rfl⟩, fun hlisting ↦ absurd hlisting hstage⟩

/-- Before the listings and after the comparison, the operations beside it leave the watch idle. -/
theorem Idle.observe {db : Database} (h : watch.Idle) (hop : op.aside = true) :
    (watch.observe settings db op answer).Idle ∧
      (watch.stage = .listing 0 → watch.observe settings db op answer = watch) := by
  have hsame : watch.Idle ∧ (watch.stage = .listing 0 → watch = watch) := ⟨h, fun _ ↦ rfl⟩
  unfold Watch.observe
  split
  · cases hop
  · cases hop
  · rw [Watch.compare, if_neg h.stage]
    exact hsame
  · split_ifs
    · rw [h.compared]
      exact hsame
    · exact hsame
  · cases hop
  · cases hop
  · exact hsame
  · exact h.abandon

end Watch

theorem Watch.finished_observe (watch : Watch) (db : Database) :
    (watch.observe settings db op answer).finished = watch.finished := by
  unfold Watch.observe
  split
  · split
    · split_ifs <;> rfl
    · unfold Watch.abandon
      split_ifs <;> rfl
  · unfold Watch.list
    split <;> rfl
  · unfold Watch.compare
    split_ifs <;> rfl
  · split_ifs <;> rfl
  · rfl
  · rfl
  · rfl
  · unfold Watch.abandon
    split_ifs <;> rfl

/-- What a step of the sync has to keep. -/
theorem respects_of {world : World}
    (hlisted : ∀ iid ∈ (w.watch.observe settings w.world.db op answer).listed,
      iid ∉ w.watch.finished ∧
        iid ∉ endedMrs settings.gitlabProjectId w.world.db world.db)
    (horphan : ∀ iid ∈ (w.watch.observe settings w.world.db op answer).orphan,
      ∀ r ∈ world.db.row settings.gitlabProjectId iid,
        r.id < (w.watch.observe settings w.world.db op answer).nextRow)
    (hgood : resurrectsNothing settings ⟨0, (), s, op, answer, w,
      w.become settings (w.watch.observe settings w.world.db op answer) world⟩) :
    (syncDiscipline settings).Respects ⟨0, (), s, op, answer, w,
      w.become settings (w.watch.observe settings w.world.db op answer) world⟩ where
  inv := by
    refine ⟨fun iid hiid hfinished ↦ ?_, horphan⟩
    obtain ⟨hold, hnew⟩ := hlisted iid hiid
    rcases List.mem_append.mp hfinished with h | h
    · rw [Watch.finished_observe] at h
      exact hold h
    · exact hnew h
  rely := fun j hj hzero ↦ absurd hzero hj
  good := hgood

/-- With nothing listed and no orphan there is nothing to keep. -/
theorem respects_of_nothing {world : World}
    (hlisted : (w.watch.observe settings w.world.db op answer).listed = [])
    (horphan : (w.watch.observe settings w.world.db op answer).orphan = none)
    (hgood : resurrectsNothing settings ⟨0, (), s, op, answer, w,
      w.become settings (w.watch.observe settings w.world.db op answer) world⟩) :
    (syncDiscipline settings).Respects ⟨0, (), s, op, answer, w,
      w.become settings (w.watch.observe settings w.world.db op answer) world⟩ := by
  refine respects_of (fun iid hiid ↦ ?_) (fun iid hiid ↦ ?_) hgood
  · rw [hlisted] at hiid
    cases hiid
  · rw [horphan] at hiid
    cases hiid

theorem good_of_aside (hop : op.aside = true) :
    resurrectsNothing settings ⟨0, (), s, op, answer, w, w'⟩ := by
  unfold resurrectsNothing
  split
  · next h =>
      cases h
      cases hop
  · next h =>
      cases h
      cases hop
  · trivial

/-- What is left of a sync that holds nothing. -/
theorem safe_of_aside {α : Type} {p : Prog α} (h : p.Aside) (early : Prop) :
    p.Safe (syncDiscipline settings) 0 ()
      (fun _ w ↦ w.watch.Idle ∧ (early → w.watch.stage = .listing 0))
      (fun _ _ w ↦ w.watch.Idle ∧ (early → w.watch.stage = .listing 0))
      fun _ _ w ↦ w.watch.Idle ∧ (early → w.watch.stage = .listing 0) := by
  refine Safe.of_leaves h (fun w v hw hrely _ ↦ ?_)
    fun s op v choice answer v' hop ⟨hidle, hearly⟩ hinv hexec _ ↦ ?_
  · obtain ⟨hstage, hlisted, horphan⟩ := OthersEnd.same (hrely rfl)
    refine ⟨⟨?_, hlisted.trans hw.1.listed, horphan.trans hw.1.orphan⟩, fun h ↦ ?_⟩
    · rw [hstage]
      exact hw.1.stage
    · exact hstage.trans (hw.2 h)
  · obtain ⟨world, -, rfl⟩ := exec_eq_some hexec
    have hobserve : (v.watch.observe settings v.world.db op answer).Idle ∧
        (v.watch.stage = .listing 0 → v.watch.observe settings v.world.db op answer = v.watch) :=
      hidle.observe hop
    obtain ⟨hnext, hkept⟩ := hobserve
    refine ⟨respects_of_nothing hnext.listed hnext.orphan (good_of_aside hop), ?_, ?_⟩
    · exact ⟨hnext.stage, hnext.listed, hnext.orphan⟩
    · intro h
      have hstage := congrArg Watch.stage (hkept (hearly h))
      exact hstage.trans (hearly h)

/-! ### The listings and the read of the queue -/

/-- The sync has listed the merge requests `listed`, by `n` labels. -/
def Listing (n : ℕ) (listed : List ℕ) (w : WatchedWorld) : Prop :=
  w.watch.stage = .listing n ∧ w.watch.listed = listed ∧ w.watch.orphan = none

theorem Listing.others {n : ℕ} {listed : List ℕ} {v : WatchedWorld} (h : Listing n listed w)
    (hv : OthersEnd w v) : Listing n listed v := by
  obtain ⟨hstage, hlisted, horphan⟩ := hv.same
  exact ⟨hstage.trans h.1, hlisted.trans h.2.1, horphan.trans h.2.2⟩

theorem safe_list {label : String} {n : ℕ} {listed : List ℕ} (hstart : n = 0 → listed = []) :
    Safe (syncDiscipline settings) 0 () (fun _ w ↦ Listing n listed w)
      (Prog.gitlab (.listMrsWithLabel label))
      (fun mrs _ w ↦ Listing (n + 1) (listed ++ (mrs : List MergeRequest).map MergeRequest.iid) w)
      fun _ _ _ ↦ True := by
  refine Safe.call fun s w v hw hrely hinv choice answer v' hexec hallowed ↦ ?_
  obtain ⟨hstage, hlisted, horphan⟩ := hw.others (hrely rfl)
  obtain ⟨world, hworld, rfl⟩ := exec_eq_some hexec
  have hdb : world.db = v.world.db := World.exec_db_eq hworld fun q hq ↦ by cases hq
  cases answer with
  | error e =>
      have hfresh : v.watch.stage = .listing 0 → v.watch.listed = [] ∧ v.watch.orphan = none := by
        intro hfirst
        rw [hstage, SyncStage.listing.injEq] at hfirst
        exact ⟨hlisted.trans (hstart hfirst), horphan⟩
      have hnone := Watch.listed_abandon hfresh
      exact ⟨respects_of_nothing hnone.1 hnone.2 trivial, trivial⟩
  | ok mrs =>
      have hobserve : v.watch.observe settings v.world.db (.gitlab (.listMrsWithLabel label))
          (.ok mrs) =
            { v.watch with
              stage := .listing (n + 1)
              listed := v.watch.listed ++ (mrs : List MergeRequest).map MergeRequest.iid } := by
        simp only [Watch.observe, Watch.list, hstage]
      refine ⟨respects_of (fun iid hiid ↦ ?_) (fun iid hiid ↦ ?_) trivial, ?_⟩
      · rw [hdb, endedMrs_self]
        refine ⟨?_, List.not_mem_nil⟩
        rw [hobserve] at hiid
        rcases List.mem_append.mp hiid with hold | hnew
        · exact hinv.listed iid hold
        · obtain ⟨mr, hmr, rfl⟩ := List.mem_map.mp hnew
          exact hallowed mr hmr
      · rw [hobserve] at hiid
        simp only [horphan] at hiid
        cases hiid
      · simp only [hobserve, WatchedWorld.become, Watch.finish, Listing, hlisted, horphan,
          and_self]

/-- The sync still has to add the merge requests `iids`. -/
structure Adding (iids : List ℕ) (w : WatchedWorld) : Prop where
  stage : w.watch.stage = .comparing
  listed : ∀ iid, iid ∈ w.watch.listed ↔ iid ∈ iids
  orphan : w.watch.orphan = none

theorem Adding.others {iids : List ℕ} {v : WatchedWorld} (h : Adding iids w)
    (hv : OthersEnd w v) : Adding iids v := by
  obtain ⟨hstage, hlisted, horphan⟩ := hv.same
  exact ⟨hstage.trans h.stage, fun iid ↦ hlisted ▸ h.listed iid, horphan.trans h.orphan⟩

theorem safe_compare {listed : List ℕ} :
    Safe (syncDiscipline settings) 0 () (fun _ w ↦ Listing 2 listed w)
      (Prog.db (.getActiveQueue settings.gitlabProjectId))
      (fun items _ w ↦ Adding
        (listed.filter fun iid ↦ !((items : List QueueItem).map QueueItem.mrIid).contains iid) w)
      fun _ _ _ ↦ True := by
  refine Safe.call fun s w v hw hrely hinv choice answer v' hexec _ ↦ ?_
  obtain ⟨hstage, hlisted, horphan⟩ := hw.others (hrely rfl)
  obtain ⟨world, hworld, rfl⟩ := exec_eq_some hexec
  cases answer with
  | error e =>
      have hfresh : v.watch.stage = .listing 0 → v.watch.listed = [] ∧ v.watch.orphan = none := by
        intro hfirst
        rw [hstage] at hfirst
        cases hfirst
      have hnone := Watch.listed_abandon hfresh
      exact ⟨respects_of_nothing hnone.1 hnone.2 trivial, trivial⟩
  | ok items =>
      have hobserve : v.watch.observe settings v.world.db
          (.db (.getActiveQueue settings.gitlabProjectId)) (.ok items) =
            { v.watch with
              stage := .comparing
              listed := v.watch.listed.filter fun iid ↦
                !((items : List QueueItem).map QueueItem.mrIid).contains iid
              nextRow := v.world.db.mergeRequests.nextId } := by
        simp only [Watch.observe, Watch.compare, hstage, if_true]
      have hdb : world.db = v.world.db := db_eq_of_read hworld fun a db' h ↦ by
        cases h
        rfl
      refine ⟨respects_of (fun iid hiid ↦ ?_) (fun iid hiid ↦ ?_) trivial, ?_⟩
      · rw [hdb, endedMrs_self]
        rw [hobserve] at hiid
        exact ⟨hinv.listed iid (List.mem_of_mem_filter hiid), List.not_mem_nil⟩
      · rw [hobserve] at hiid
        simp only [horphan] at hiid
        cases hiid
      · rw [hobserve, ← hlisted]
        exact ⟨rfl, fun iid ↦ Iff.rfl, horphan⟩

/-! ### Adding what is missing -/

theorem Watch.not_listing_of_comparing {watch : Watch} (h : watch.stage = .comparing) :
    watch.stage = .listing 0 → watch.listed = [] ∧ watch.orphan = none := by
  intro hfirst
  rw [h] at hfirst
  cases hfirst

/-- The merge request is compared, and the others are still to be added. -/
theorem Adding.compared {iid : ℕ} {iids : List ℕ} {ended : List ℕ} {world : World}
    (h : Adding (iid :: iids) w) (hnew : iid ∉ iids) :
    Adding iids ⟨world, (w.watch.compared iid).finish ended⟩ := by
  refine ⟨h.stage, fun other ↦ ?_, h.orphan⟩
  have hother := h.listed other
  rw [List.mem_cons] at hother
  have hmem : other ∈ (w.watch.compared iid).listed ↔ other ∈ w.watch.listed ∧ other ≠ iid := by
    simp [Watch.compared]
  refine hmem.trans ⟨fun ⟨hlisted, hne⟩ ↦ (hother.mp hlisted).resolve_left hne, fun hrest ↦ ?_⟩
  refine ⟨hother.mpr (Or.inr hrest), ?_⟩
  rintro rfl
  exact hnew hrest

theorem safe_getQueueItem {iid : ℕ} {iids : List ℕ} (hnew : iid ∉ iids) :
    Safe (syncDiscipline settings) 0 () (fun _ w ↦ Adding (iid :: iids) w)
      (Prog.getQueueItem settings.gitlabProjectId iid)
      (fun found _ w ↦
        if found.any fun item ↦ item.pendingCompletion.isSome then Adding iids w
        else Adding (iid :: iids) w)
      fun _ _ _ ↦ True := by
  refine Safe.call fun s w v hw hrely hinv choice answer v' hexec _ ↦ ?_
  have hv := hw.others (hrely rfl)
  obtain ⟨world, hworld, rfl⟩ := exec_eq_some hexec
  have hdb : world.db = v.world.db := db_eq_of_read hworld fun a db' h ↦ by
    cases h
    rfl
  cases answer with
  | error e =>
      have hnone := Watch.listed_abandon (Watch.not_listing_of_comparing hv.stage)
      exact ⟨respects_of_nothing hnone.1 hnone.2 trivial, trivial⟩
  | ok found =>
      have hobserve : v.watch.observe settings v.world.db
          (.db (.getQueueItem settings.gitlabProjectId iid)) (.ok found) =
            if (found : Option QueueItem).any fun item ↦ item.pendingCompletion.isSome then
              v.watch.compared iid
            else v.watch := rfl
      refine ⟨respects_of (fun other hother ↦ ?_) (fun other hother ↦ ?_) trivial, ?_⟩
      · rw [hdb, endedMrs_self]
        refine ⟨hinv.listed other ?_, List.not_mem_nil⟩
        rw [hobserve] at hother
        split_ifs at hother
        · exact List.mem_of_mem_filter hother
        · exact hother
      · rw [hobserve] at hother
        have horphan := hv.orphan
        split_ifs at hother
        · rw [Watch.compared, horphan] at hother
          cases hother
        · rw [horphan] at hother
          cases hother
      · simp only [hobserve]
        split_ifs
        · exact hv.compared hnew
        · exact ⟨hv.stage, hv.listed, hv.orphan⟩

theorem safe_addToQueue {mr : MergeRequest} {isHotfix : Bool} {iids : List ℕ}
    (hnew : mr.iid ∉ iids) :
    Safe (syncDiscipline settings) 0 () (fun _ w ↦ Adding (mr.iid :: iids) w)
      (Prog.db (.addToQueue settings.gitlabProjectId mr isHotfix)) (fun _ _ w ↦ Adding iids w)
      fun _ _ _ ↦ True := by
  refine Safe.call fun s w v hw hrely hinv choice answer v' hexec _ ↦ ?_
  have hv := hw.others (hrely rfl)
  obtain ⟨world, hworld, rfl⟩ := exec_eq_some hexec
  -- The merge request is still listed, so that its lifecycle has not ended.
  have hgood : resurrectsNothing settings
      ⟨0, (), s, .db (.addToQueue settings.gitlabProjectId mr isHotfix), answer, v,
        v.become settings (v.watch.observe settings v.world.db _ answer) world⟩ := by
    intro iid hiid
    rcases World.exec_db_cases hworld with hsame | ⟨q, a, hq, hadd⟩
    · obtain ⟨r, hr, -, hfresh, -⟩ := mem_createdMrs.mp hiid
      have hold : r ∈ world.db.mergeRequests.rows := hr
      rw [hsame] at hold
      exact absurd rfl (hfresh r hold)
    · cases hq
      rw [eq_of_mem_createdMrs_addToQueue hadd hiid]
      exact hinv.listed mr.iid ((hv.listed mr.iid).mpr List.mem_cons_self)
  cases answer with
  | error e =>
      have hnone := Watch.listed_abandon (Watch.not_listing_of_comparing hv.stage)
      exact ⟨respects_of_nothing hnone.1 hnone.2 hgood, trivial⟩
  | ok item =>
      refine ⟨respects_of (fun iid hiid ↦ ?_) (fun iid hiid ↦ ?_) hgood, hv.compared hnew⟩
      · obtain ⟨hlisted, hne⟩ := List.mem_filter.mp hiid
        refine ⟨hinv.listed iid hlisted, fun hended ↦ ?_⟩
        rcases World.exec_db_cases hworld with hsame | ⟨q, a, hq, hadd⟩
        · rw [hsame, endedMrs_self] at hended
          cases hended
        · cases hq
          obtain ⟨r, -, hdeletes, rfl⟩ := exists_deletes_of_mem_endedMrs hadd hended
          exact of_decide_eq_true hne hdeletes.2.1
      · have horphan : v.watch.orphan = some iid := hiid
        rw [hv.orphan] at horphan
        cases horphan

theorem safe_addMissingMrs {mrs : List MergeRequest} (hnodup : (mrs.map MergeRequest.iid).Nodup) :
    Safe (syncDiscipline settings) 0 () (fun _ w ↦ Adding (mrs.map MergeRequest.iid) w)
      (Program.tally (QueueScheduler.addMissingMr settings) mrs)
      (fun _ _ w ↦ Adding [] w) fun _ _ _ ↦ True := by
  let inv (rest : List MergeRequest) (_ : Local) (w : WatchedWorld) : Prop :=
    (rest.map MergeRequest.iid).Nodup ∧ Adding (rest.map MergeRequest.iid) w
  have hall : Safe (syncDiscipline settings) 0 () (inv mrs)
      (Program.tally (QueueScheduler.addMissingMr settings) mrs) (fun _ ↦ inv [])
      fun _ _ _ ↦ True := by
    refine Safe.tally (fun mr rest s w ⟨hfresh, hw⟩ ↦ ?_) mrs
    rw [List.map_cons, List.nodup_cons] at hfresh
    refine Safe.bind (safe_getQueueItem hfresh.1) (fun found ↦ ?_) s w hw
    split_ifs with hpending
    · exact Safe.ret fun _ _ h ↦ ⟨hfresh.2, h⟩
    · exact Safe.bind (Safe.bind (safe_addToQueue hfresh.1) fun _ ↦ Safe.ret fun _ _ h ↦ h)
        fun _ ↦ Safe.ret fun _ _ h ↦ ⟨hfresh.2, h⟩
  exact hall.mono (fun _ _ h ↦ ⟨hnodup, h⟩) (fun _ _ _ h ↦ h.2) fun _ _ _ h ↦ h

/-! ### Removing the orphans -/

/-- Every listed merge request is compared with the queue, and `orphan` is to be removed. -/
structure Removing (orphan : Option ℕ) (w : WatchedWorld) : Prop where
  stage : w.watch.stage = .comparing
  listed : w.watch.listed = []
  orphan : w.watch.orphan = orphan

theorem Removing.others {orphan : Option ℕ} {v : WatchedWorld} (h : Removing orphan w)
    (hv : OthersEnd w v) : Removing orphan v := by
  obtain ⟨hstage, hlisted, horphan⟩ := hv.same
  exact ⟨hstage.trans h.stage, hlisted.trans h.listed, horphan.trans h.orphan⟩

theorem Adding.removing (h : Adding [] w) : Removing none w := by
  refine ⟨h.stage, List.eq_nil_iff_forall_not_mem.mpr fun iid hiid ↦ ?_, h.orphan⟩
  exact List.not_mem_nil ((h.listed iid).mp hiid)

theorem Removing.idle (h : Removing none w) : w.watch.Idle := by
  refine ⟨?_, h.listed, h.orphan⟩
  rw [h.stage]
  exact fun hstage ↦ by cases hstage

theorem safe_getMr {iid : ℕ} :
    Safe (syncDiscipline settings) 0 () (fun _ w ↦ Removing none w)
      (Prog.gitlab (.getMr iid false))
      (fun mr _ w ↦ Removing (if (mr : MergeRequest).triggered settings then none else some iid) w)
      fun e _ w ↦ e.isKind .notFound = true → Removing (some iid) w := by
  refine Safe.call fun s w v hw hrely hinv choice answer v' hexec hallowed ↦ ?_
  have hv := hw.others (hrely rfl)
  obtain ⟨world, hworld, rfl⟩ := exec_eq_some hexec
  have hdb : world.db = v.world.db := World.exec_db_eq hworld fun q hq ↦ by cases hq
  have hobserve : v.watch.observe settings v.world.db (.gitlab (.getMr iid false)) answer =
      match orphaned settings answer with
      | some isOrphan => { v.watch with orphan := if isOrphan then some iid else none }
      | none => v.watch.abandon := by
    simp only [Watch.observe, hv.stage, if_true]
  cases horphaned : orphaned settings answer with
  | none =>
      simp only [horphaned] at hobserve
      have hnone := Watch.listed_abandon (Watch.not_listing_of_comparing hv.stage)
      rw [← hobserve] at hnone
      refine ⟨respects_of_nothing hnone.1 hnone.2 trivial, ?_⟩
      cases answer with
      | ok mr => cases horphaned
      | error e =>
          intro hkind
          simp [orphaned, hkind] at horphaned
  | some isOrphan =>
      simp only [horphaned] at hobserve
      refine ⟨respects_of (fun other hother ↦ ?_) (fun other hother r hr ↦ ?_) trivial, ?_⟩
      · rw [hobserve] at hother
        simp only [hv.listed] at hother
        cases hother
      · rw [hobserve] at hother ⊢
        cases isOrphan with
        | false => cases hother
        | true =>
            cases hother
            rw [hdb] at hr
            exact hallowed horphaned hv.stage r hr
      · have hnext : Removing (if isOrphan then some iid else none)
            (v.become settings (v.watch.observe settings v.world.db (.gitlab (.getMr iid false))
              answer) world) := by
          rw [hobserve]
          exact ⟨hv.stage, hv.listed, rfl⟩
        cases answer with
        | ok mr =>
            obtain rfl : isOrphan = !mr.triggered settings := (Option.some.inj horphaned).symm
            simp only
            cases htriggered : MergeRequest.triggered settings mr with
            | false =>
                rw [htriggered] at hnext
                exact hnext
            | true =>
                rw [htriggered] at hnext
                exact hnext
        | error e =>
            intro hkind
            obtain rfl : true = isOrphan := by simpa [orphaned, hkind] using horphaned
            exact hnext

theorem safe_shouldRemoveFromQueue {iid : ℕ} :
    Safe (syncDiscipline settings) 0 () (fun _ w ↦ Removing none w)
      (QueueScheduler.shouldRemoveFromQueue settings iid)
      (fun orphan _ w ↦ Removing (if orphan then some iid else none) w)
      fun _ _ _ ↦ True := by
  refine Safe.handle (Safe.bind safe_getMr fun mr ↦ ?_) fun e ↦ ?_
  · by_cases hstate : mr.state = .opened
    · rw [if_neg (not_not.mpr hstate)]
      refine Safe.ret fun _ _ h ↦ ?_
      simp only [MergeRequest.triggered, hstate, decide_true, Bool.true_and] at h
      cases hqueue : mr.labels.contains settings.queueLabel <;>
        cases hhotfix : mr.labels.contains settings.hotfixLabel <;>
          simp only [hqueue, hhotfix] at h ⊢ <;> exact h
    · rw [if_pos hstate]
      refine Safe.ret fun _ _ h ↦ ?_
      simpa [MergeRequest.triggered, hstate] using h
  · split_ifs with hkind
    · exact Safe.ret fun _ _ h ↦ h hkind
    · exact Safe.throw fun _ _ _ ↦ trivial

theorem safe_removeFromQueue {iid : ℕ} :
    Safe (syncDiscipline settings) 0 () (fun _ w ↦ Removing (some iid) w)
      (Prog.db (.removeFromQueue settings.gitlabProjectId iid)) (fun _ _ w ↦ Removing none w)
      fun _ _ _ ↦ True := by
  refine Safe.call fun s w v hw hrely hinv choice answer v' hexec _ ↦ ?_
  have hv := hw.others (hrely rfl)
  obtain ⟨world, hworld, rfl⟩ := exec_eq_some hexec
  -- The rows that change are those of the orphan.
  have hgood : resurrectsNothing settings
      ⟨0, (), s, .db (.removeFromQueue settings.gitlabProjectId iid), answer, v,
        v.become settings (v.watch.observe settings v.world.db _ answer) world⟩ := by
    intro r hr hchanged
    rcases World.exec_db_cases hworld with hsame | ⟨q, a, hq, hremove⟩
    · have hgone : r ∉ world.db.mergeRequests.rows := hchanged
      rw [hsame] at hgone
      exact absurd hr hgone
    · cases hq
      obtain ⟨r', hr', -, -, -, hchange⟩ := QueueOp.exec_row hremove hr fun h ↦ h
      rcases hchange with rfl | ⟨hproject, hiid, -⟩
      · exact absurd hr' hchanged
      · refine hinv.orphan iid (by rw [hv.orphan]; rfl) r ?_
        exact KeyedTable.byKey_eq_some_iff.mpr ⟨hr, by rw [key_mergeRequestRow, hproject, hiid]⟩
  cases answer with
  | error e =>
      have hnone := Watch.listed_abandon (Watch.not_listing_of_comparing hv.stage)
      exact ⟨respects_of_nothing hnone.1 hnone.2 hgood, trivial⟩
  | ok done => exact ⟨respects_of_nothing hv.listed rfl hgood, hv.stage, hv.listed, rfl⟩

theorem safe_removeOrphanedMrs (items : List QueueItem) :
    Safe (syncDiscipline settings) 0 () (fun _ w ↦ Removing none w)
      (Program.tally (QueueScheduler.removeOrphanedMr settings) items)
      (fun _ _ w ↦ Removing none w) fun _ _ _ ↦ True := by
  let inv (_ : List QueueItem) (_ : Local) (w : WatchedWorld) : Prop := Removing none w
  have hall : Safe (syncDiscipline settings) 0 () (inv items)
      (Program.tally (QueueScheduler.removeOrphanedMr settings) items) (fun _ ↦ inv [])
      fun _ _ _ ↦ True := by
    refine Safe.tally (fun item _ ↦ ?_) items
    refine Safe.bind safe_shouldRemoveFromQueue fun orphan ↦ ?_
    cases orphan with
    | false => exact Safe.ret fun _ _ h ↦ h
    | true => exact Safe.bind safe_removeFromQueue fun _ ↦ Safe.ret fun _ _ h ↦ h
  exact hall

/-! ### The whole sync -/

/-- The rest of a sync that holds nothing may do what it likes beside the comparison. -/
theorem safe_rest {α : Type} {p : Prog α} (h : p.Aside) :
    Safe (syncDiscipline settings) 0 () (fun _ w ↦ w.watch.Idle) p (fun _ _ w ↦ w.watch.Idle)
      fun _ _ _ ↦ True :=
  (safe_of_aside h False).mono (fun _ _ h ↦ ⟨h, False.elim⟩) (fun _ _ _ h ↦ h.1)
    fun _ _ _ _ ↦ trivial

/-- Before it lists, the sync holds nothing. -/
theorem safe_early {α : Type} {p : Prog α} (h : p.Aside) :
    Safe (syncDiscipline settings) 0 () (fun _ w ↦ Listing 0 [] w) p (fun _ _ w ↦ Listing 0 [] w)
      fun _ _ _ ↦ True := by
  refine (safe_of_aside h True).mono (fun _ w hw ↦ ⟨⟨?_, hw.2.1, hw.2.2⟩, fun _ ↦ hw.1⟩)
    (fun _ _ _ hw ↦ ⟨hw.2 trivial, hw.1.listed, hw.1.orphan⟩) fun _ _ _ _ ↦ trivial
  rw [hw.1]
  exact fun hstage ↦ by cases hstage

theorem safe_doSync :
    Safe (syncDiscipline settings) 0 () (fun _ w ↦ Listing 0 [] w) (QueueScheduler.doSync settings)
      (fun _ _ w ↦ w.watch.Idle) fun _ _ _ ↦ True := by
  refine Safe.bind (safe_early (Prog.aside_await rfl)) fun snapshot ↦ ?_
  refine Safe.bind (safe_list fun _ ↦ rfl) fun queueLabelMrs ↦ ?_
  refine Safe.bind (safe_list fun h ↦ by cases h) fun hotfixLabelMrs ↦ ?_
  refine Safe.bind safe_compare fun queueItems ↦ ?_
  obtain ⟨hnodup, -, hiids⟩ := QueueScheduler.mergeListings_spec queueLabelMrs hotfixLabelMrs
  refine Safe.bind ((safe_addMissingMrs (hnodup.sublist (List.filter_sublist.map _))).mono
    (fun _ w hw ↦ ⟨hw.stage, fun iid ↦ (hw.listed iid).trans ?_, hw.orphan⟩)
    (fun _ _ _ h ↦ h) fun _ _ _ h ↦ h) fun added ↦ ?_
  · have hiid := hiids iid
    simp only [List.mem_map, List.mem_filter, List.nil_append, List.mem_append] at hiid ⊢
    constructor
    · rintro ⟨hlisted, hqueue⟩
      obtain ⟨mr, hmr, rfl⟩ := hiid.mpr hlisted
      exact ⟨mr, ⟨hmr, hqueue⟩, rfl⟩
    · rintro ⟨mr, ⟨hmr, hqueue⟩, rfl⟩
      exact ⟨hiid.mp ⟨mr, hmr, rfl⟩, hqueue⟩
  refine Safe.bind ((safe_removeOrphanedMrs _).mono (fun _ _ h ↦ h.removing) (fun _ _ _ h ↦ h)
    fun _ _ _ h ↦ h) fun removed ↦ ?_
  refine Safe.bind ((safe_rest
    (Leaves.tally (fun mr ↦ QueueScheduler.aside_refreshListedMr _ _ mr) _)).mono
      (fun _ _ h ↦ h.idle) (fun _ _ _ h ↦ h) fun _ _ _ h ↦ h) fun updated ↦ ?_
  refine Safe.bind (safe_rest QueueScheduler.aside_retryPending) fun _ ↦ ?_
  split_ifs
  · exact safe_rest (QueueScheduler.aside_finalizeSync _)
  · exact Safe.ret fun _ _ h ↦ h

theorem safe_syncQueue :
    Safe (syncDiscipline settings) 0 () (fun _ w ↦ Listing 0 [] w)
      ((syncSystem settings).body ()) (fun _ _ _ ↦ True) fun _ _ _ ↦ True := by
  have hsync : Safe (syncDiscipline settings) 0 () (fun _ w ↦ Listing 0 [] w)
      (QueueScheduler.syncQueue settings) (fun _ _ _ ↦ True) fun _ _ _ ↦ True := by
    refine Safe.bind (safe_early QueueCompletion.aside_recoverAll) fun recovered ↦ ?_
    refine Safe.bind safe_doSync fun stats ↦ ?_
    cases recovered with
    | false => exact Safe.ret fun _ _ _ ↦ trivial
    | true =>
        exact Safe.bind (safe_rest QueueScheduler.aside_broadcastQueueUpdate) fun _ ↦
          Safe.ret fun _ _ _ ↦ trivial
  exact Safe.bind hsync fun _ ↦ Safe.ret fun _ _ _ ↦ trivial

end Reliance

/-- While no other task ends a lifecycle that a listing still names, nor queues a merge request
again that the sync is about to remove, the sync resurrects nothing. -/
theorem sync_resurrects_nothing (settings : Settings) (world : World) (moves : List SyncMove)
    (h : SyncUndisturbed settings world moves) :
    ∀ e ∈ syncEvents settings world moves, resurrectsNothing settings e := by
  have hsafe : ((syncSystem settings).body () {}).Safe (syncDiscipline settings) 0 ()
      (fun _ _ _ ↦ True) (fun _ _ _ ↦ True) { world } :=
    safe_syncQueue {} { world } ⟨rfl, rfl, rfl⟩
  refine Task.Safe.good_of_among (D := syncDiscipline settings)
    (fun change hchange w hinv halone ↦ ?_)
    ⟨fun _ h ↦ (List.not_mem_nil h).elim, fun _ h ↦ by cases h⟩ hsafe h
  obtain ⟨move, -, hmove⟩ := List.mem_map.mp hchange
  cases move with
  | sync choice => cases hmove
  | other thread choice op =>
      cases hmove
      obtain ⟨hend, hagrees⟩ := otherStep_relies hinv halone
      exact ⟨fun _ ↦ hend, hagrees⟩

/-! ## A completion that finishes after the listing -/

instance (settings : Settings) : DecidablePred (tellsTruly settings) := fun e ↦ by
  unfold tellsTruly
  split <;> infer_instance

instance decidableLeavesAlone (settings : Settings) (w w' : WatchedWorld) :
    Decidable (leavesAlone settings w w') := by
  unfold leavesAlone
  infer_instance

instance (settings : Settings) (world : World) (moves : List SyncMove) :
    Decidable (SyncUndisturbed settings world moves) :=
  have : ∀ w w' : (syncSystem settings).World, Decidable (leavesAlone settings w w') :=
    decidableLeavesAlone settings
  Task.decidableAmong ..

instance (settings : Settings) : DecidablePred (resurrectsNothing settings) := fun e ↦ by
  unfold resurrectsNothing
  split <;> infer_instance

def lateListing : Settings where
  gitlabProjectId := 1
  rounds := 1

/-- What completes the only merge request of the queue. -/
def finishingMoves : List SyncMove :=
  let choice (now : ℤ) : Choice := { now, gitlab := answersFor sampleMergeRequest }
  let payload :=
    QueueManager.completionPayload (rowToQueueItem sampleRow) sampleCompletion 5000000
  let item := { rowToQueueItem sampleRow with pendingCompletion := some payload }
  [.other 0 (choice 5000000) (.db (.prepareCompletion 1 7 sampleCompletion)),
    .other 0 (choice 6000000) (.db (.finalizeCompletion 1 item payload))]

def syncSteps (n : ℕ) : List SyncMove :=
  List.replicate n (.sync { now := 7000000, gitlab := answersFor sampleMergeRequest })

/-- A completion may finish once the sync has compared its merge request with the queue. -/
theorem sync_resurrects_nothing_after_read :
    SyncUndisturbed lateListing { db := sampleDatabase }
        (syncSteps 5 ++ finishingMoves ++ syncSteps 5) ∧
      ∀ e ∈ syncEvents lateListing { db := sampleDatabase }
          (syncSteps 5 ++ finishingMoves ++ syncSteps 5),
        resurrectsNothing lateListing e :=
  have h : SyncUndisturbed lateListing { db := sampleDatabase }
      (syncSteps 5 ++ finishingMoves ++ syncSteps 5) := by
    decide +kernel
  ⟨h, sync_resurrects_nothing lateListing { db := sampleDatabase } _ h⟩

/-- The sync lists a merge request, its completion finishes, and the sync queues it again. -/
theorem sync_resurrects_between_listing_and_read :
    ¬ ∀ (settings : Settings) (world : World) (moves : List SyncMove),
      (∀ e ∈ syncEvents settings world moves, tellsTruly settings e) →
        ∀ e ∈ syncEvents settings world moves, resurrectsNothing settings e := by
  intro h
  have hall := h lateListing { db := sampleDatabase } (syncSteps 4 ++ finishingMoves ++ syncSteps 3)
  revert hall
  decide +kernel

end MergeQueue
