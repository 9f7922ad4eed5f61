import MergeQueue.PriorityOrder
import MergeQueue.QueueRuns
import MergeQueue.TaskDiscipline

/-!
# Projects that share a process

One process serves several projects, with one database and one set of locks.  The tasks
never wait for each other in a circle, and a task of one project neither changes nor reads
what belongs to another.
-/

namespace MergeQueue

open Interleave (Config Event LockPlan LockUse Move System)
open KeyedTable (Untouched)
open QueueManager

/-! ## What belongs to a project -/

/-- The queue and the history of a project. -/
def Database.ofProject (db : Database) (projectId : ℕ) :
    List MergeRequestRow × List HistoryRow :=
  (db.mergeRequests.rows.filter fun r ↦ r.projectId = projectId,
    db.history.rows.filter fun r ↦ r.values.projectId = projectId)

/-- What the row leaves behind stays with its project. -/
structure MergeRequestRow.Owned (r : MergeRequestRow) : Prop where
  history : ∀ payload ∈ r.pendingCompletion, payload.history.projectId = r.projectId
  requests : ∀ saved ∈ r.requeueRequest, ∀ admission ∈ saved.admission,
    admission.params.projectId = r.projectId

def Database.Owned (db : Database) : Prop := ∀ r ∈ db.mergeRequests.rows, r.Owned

theorem owned_of_fresh {r : MergeRequestRow} (h : QueueOp.Fresh r) : r.Owned := by
  obtain ⟨params, isHotfix, isAutomated, queuedAt, note, ignored, h⟩ := h
  rw [h]
  refine ⟨fun payload hpayload ↦ ?_, fun saved hsaved ↦ ?_⟩
  · cases hpayload
  · cases hsaved

namespace MergeRequestRow.Owned

variable {r r' : MergeRequestRow}

theorem of_requeueRequest (h : r.Owned) (hproject : r'.projectId = r.projectId)
    (hpending : ∀ payload ∈ r'.pendingCompletion, payload.history.projectId = r.projectId)
    (hrequests : ∀ request ∈ r'.requeueRequest, ∀ admission ∈ request.admission,
      ∃ saved ∈ r.requeueRequest, ∃ old ∈ saved.admission,
        admission.params.projectId = old.params.projectId) : r'.Owned := by
  refine ⟨fun payload hpayload ↦ (hpending payload hpayload).trans hproject.symm, ?_⟩
  intro request hrequest admission hadmission
  obtain ⟨saved, hsaved, old, hold, hparams⟩ := hrequests request hrequest admission hadmission
  exact hparams.trans ((h.requests saved hsaved old hold).trans hproject.symm)

theorem of_eq (h : r.Owned) (hproject : r'.projectId = r.projectId)
    (hpending : r'.pendingCompletion = r.pendingCompletion)
    (hrequest : r'.requeueRequest = r.requeueRequest) : r'.Owned := by
  refine h.of_requeueRequest hproject (hpending ▸ h.history) fun request hr admission ha ↦ ?_
  exact ⟨request, hrequest ▸ hr, admission, ha, rfl⟩

/-- A call that concerns one project keeps each row with its own. -/
theorem rowChange {projectId : ℕ} {now : ℤ} {op : QueueOp} (h : r.Owned)
    (hop : op.Concerns projectId) (hchange : op.RowChange now r r') : r'.Owned := by
  cases op with
  | removeFromQueue | markStaleWarningSent =>
      rcases hchange with rfl | ⟨-, -, rfl⟩
      · exact h
      · exact h.of_eq rfl rfl rfl
  | updateMrState =>
      rcases hchange with rfl | ⟨-, -, -, rfl⟩
      · exact h
      · exact h.of_eq rfl rfl rfl
  | clearPendingNotification | stageCompletionPositions =>
      obtain ⟨note, rfl⟩ := hchange
      exact h.of_eq rfl rfl rfl
  | finalizeCompletion =>
      obtain ⟨note, ignored, rfl⟩ := hchange
      exact h.of_eq rfl rfl rfl
  | updateHotfixStatus | activatePriorities =>
      obtain ⟨_, _, _, _, _, requeue, rfl, hrequeue⟩ := hchange
      refine h.of_requeueRequest rfl h.history fun request hrequest admission hadmission ↦ ?_
      rcases hrequeue with rfl | ⟨saved, applied, hsaved, rfl⟩
      · exact ⟨request, hrequest, admission, hadmission, rfl⟩
      · cases hrequest
        exact ⟨saved, hsaved, admission, hadmission, rfl⟩
  | deferRequeue project item request allowActive =>
      rcases hchange with rfl | ⟨hmay, token, pending, hwritten, rfl⟩
      · exact h
      · refine ⟨h.history, fun saved hsaved admission hadmission ↦ ?_⟩
        cases hsaved
        rcases admission_of_writtenRequeue hwritten hadmission with
          ⟨saved, hsaved, hold⟩ | ⟨_, _, heq, hparams, -⟩
        · exact h.requests saved hsaved admission hold
        · cases heq
          exact hparams.trans (requestsOwnRow_of_mayWriteRequeue hmay).1.symm
  | cancelRequeue =>
      rcases hchange with rfl | ⟨-, token, pending, hwritten, rfl⟩
      · exact h
      · refine h.of_requeueRequest rfl h.history fun request hrequest admission hadmission ↦ ?_
        cases hrequest
        rcases admission_of_writtenRequeue hwritten hadmission with
          ⟨saved, hsaved, hold⟩ | ⟨_, _, heq, -⟩
        · exact ⟨saved, hsaved, admission, hold, rfl⟩
        · cases heq
  | refreshRequeueLabels =>
      rcases hchange with rfl | ⟨-, saved, pending, hsaved, hrefreshed, rfl⟩
      · exact h
      · refine h.of_requeueRequest rfl h.history fun request hrequest admission hadmission ↦ ?_
        cases hrequest
        obtain ⟨old, hold, hparams, -⟩ := admission_of_refreshedRequeue hrefreshed hadmission
        exact ⟨saved, hsaved, old, hold, hparams⟩
  | prepareCompletion =>
      rcases hchange with rfl | ⟨-, -, -, -, rfl⟩
      · exact h
      · refine h.of_requeueRequest rfl ?_ fun request hrequest admission hadmission ↦ ?_
        · intro payload hpayload
          cases hpayload
          rfl
        · exact ⟨request, admission_of_completionAdmission hrequest, admission, hadmission, rfl⟩
  | saveCompletionProgress project queueId payload =>
      obtain ⟨hproject, hpayload⟩ := hop
      rcases hchange with rfl | ⟨hrow, -, -, rfl⟩
      · exact h
      · refine ⟨fun saved hsaved ↦ ?_, h.requests⟩
        cases hsaved
        exact hpayload.trans (hproject.symm.trans hrow.symm)
  | addToQueue | getQueueItem | getActiveQueue | getPendingCompletions | getStaleMrs | getMrState
  | completeMr | cleanupOldEntries =>
      cases hchange
      exact h

end MergeRequestRow.Owned

theorem Database.Owned.exec {qm : QueueManager} {now : ℤ} {tokens : ℕ → Uuid} {op : QueueOp}
    {projectId : ℕ} {db db' : Database} {answer : op.Answer} (hdb : db.Owned)
    (hop : op.Concerns projectId) (h : op.exec qm now tokens db = .ok (answer, db')) :
    db'.Owned :=
  (QueueOp.exec_evolves h).forall_rows hdb (fun _ _ _ _ _ hchange hr ↦ hr.rowChange hop hchange)
    fun _ _ hfresh ↦ owned_of_fresh hfresh

/-! ## What a call leaves alone -/

/-- At most what belongs to the project changed. -/
structure SameElsewhere (projectId : ℕ) (db db' : Database) : Prop where
  rows : Untouched (fun r ↦ decide (r.projectId ≠ projectId)) db.mergeRequests db'.mergeRequests
  history : Untouched (fun r ↦ decide (r.values.projectId ≠ projectId)) db.history db'.history

namespace SameElsewhere

variable {projectId : ℕ} {db db' db'' : Database}

theorem refl : SameElsewhere projectId db db := ⟨.refl, .refl⟩

theorem trans (h : SameElsewhere projectId db db') (h' : SameElsewhere projectId db' db'') :
    SameElsewhere projectId db db'' := ⟨h.rows.trans h'.rows, h.history.trans h'.history⟩

theorem ofProject_eq (h : SameElsewhere projectId db db') {other : ℕ} (hne : other ≠ projectId) :
    db'.ofProject other = db.ofProject other := by
  refine Prod.ext (h.rows.mono fun r hr ↦ ?_) (h.history.mono fun r hr ↦ ?_)
  · rw [decide_eq_true_eq] at hr ⊢
    rwa [hr]
  · rw [decide_eq_true_eq] at hr ⊢
    rwa [hr]

theorem insertMr {params : RequeueParams} {isHotfix isAutomated : Bool} {queuedAt : ℤ}
    (h : params.projectId = projectId) :
    SameElsewhere projectId db (insertMr db params isHotfix isAutomated queuedAt) := by
  refine ⟨?_, .refl⟩
  apply Untouched.insertOrIgnore
  · exact fun _ ↦ rfl
  · exact decide_eq_false (not_not.mpr h)

theorem insertHistory {values : HistoryParams} (h : values.projectId = projectId) :
    SameElsewhere projectId db (insertHistory db values) := by
  refine ⟨.refl, ?_⟩
  apply Untouched.insertOrIgnore
  simpa using h

theorem deleteWhere {hit : MergeRequestRow → Bool}
    (h : ∀ r ∈ db.mergeRequests.rows, hit r = true → r.projectId = projectId) :
    SameElsewhere projectId db
      { db with mergeRequests := db.mergeRequests.deleteWhere hit } :=
  ⟨.deleteWhere fun r hr hhit ↦ by simpa using h r hr hhit, .refl⟩

theorem updateWhere {hit : MergeRequestRow → Bool} {f : MergeRequestRow → MergeRequestRow}
    {hf : ∀ r, Keyed.rowId (f r) = Keyed.rowId r ∧ Keyed.key (f r) = Keyed.key r}
    (h : ∀ r ∈ db.mergeRequests.rows, hit r = true → r.projectId = projectId) :
    SameElsewhere projectId db
      { db with mergeRequests := db.mergeRequests.updateWhere hit f hf } := by
  refine ⟨?_, .refl⟩
  apply Untouched.updateWhere
  · exact hf
  · exact fun r hr hhit ↦ by simpa using h r hr hhit
  · intro r
    have hkey := (hf r).2
    simp only [key_mergeRequestRow, Prod.mk.injEq] at hkey
    rw [hkey.1]

theorem ite {b : Bool} (h : SameElsewhere projectId db db') (h' : SameElsewhere projectId db db'') :
    SameElsewhere projectId db (if b then db' else db'') := by
  cases b
  · exact h'
  · exact h

end SameElsewhere

theorem mem_selectActiveQueue {db : Database} {projectId : ℕ} {r : MergeRequestRow}
    (h : r ∈ selectActiveQueue db projectId) :
    r ∈ db.mergeRequests.rows ∧ r.projectId = projectId := by
  rw [selectActiveQueue, List.mem_insertionSort, List.mem_filter] at h
  simp only [Bool.and_eq_true, decide_eq_true_eq] at h
  exact ⟨h.1, h.2.1⟩

/-- Feedback is staged for rows of the queue only. -/
theorem stageFeedback_untouched {out : MergeRequestRow → Bool}
    (hout : ∀ r note, out { r with pendingNotification := note } = out r)
    {feedback : ℕ → MergeRequestRow → Option PendingNotification}
    {queue : List (MergeRequestRow × ℕ)} {table : KeyedTable MergeRequestRow}
    (h : ∀ entry ∈ queue, ∀ r ∈ table.rows, r.id = entry.1.id → out r = false) :
    Untouched out table (stageFeedback feedback queue table) := by
  induction queue generalizing table with
  | nil => exact .refl
  | cons entry queue ih =>
      rw [List.forall_mem_cons] at h
      rw [stageFeedback, List.foldl_cons]
      cases feedback entry.2 entry.1 with
      | none => exact ih h.2
      | some pending =>
          have hset : Untouched out table (setPendingNotification table entry.1.id pending) := by
            apply Untouched.updateWhere
            · exact fun r hr hid ↦ h.1 r hr (of_decide_eq_true hid)
            · exact fun r ↦ hout r _
          refine hset.trans (ih fun other hother r hr hid ↦ ?_)
          obtain ⟨s, hs, rfl⟩ := KeyedTable.mem_updateWhere.mp hr
          split_ifs at hid ⊢
          · rw [hout]
            exact h.2 other hother s hs hid
          · exact h.2 other hother s hs hid

/-- Feedback for the queue of the project. -/
theorem SameElsewhere.stageFeedback {db : Database} {projectId : ℕ}
    {feedback : ℕ → MergeRequestRow → Option PendingNotification} :
    SameElsewhere projectId db
      { db with
        mergeRequests :=
          QueueManager.stageFeedback feedback ((selectActiveQueue db projectId).zipIdx 1)
            db.mergeRequests } := by
  refine ⟨stageFeedback_untouched (fun _ _ ↦ rfl) fun entry hentry r hr hid ↦ ?_, .refl⟩
  obtain ⟨hmem, hproject⟩ := mem_selectActiveQueue (List.fst_mem_of_mem_zipIdx hentry)
  rw [db.mergeRequests.eq_of_rowId_eq hr hmem hid]
  simpa using hproject

theorem SameElsewhere.stageFeedback_if {db : Database} {projectId : ℕ} {b : Bool}
    {feedback : ℕ → MergeRequestRow → Option PendingNotification} :
    SameElsewhere projectId db
      { db with
        mergeRequests :=
          if b then
            QueueManager.stageFeedback feedback ((selectActiveQueue db projectId).zipIdx 1)
              db.mergeRequests
          else db.mergeRequests } := by
  cases b
  · exact refl
  · exact stageFeedback

namespace SameElsewhere

variable {qm : QueueManager} {projectId : ℕ} {now : ℤ} {tokens : ℕ → Uuid} {db db' : Database}

section Tables

variable {table table' : KeyedTable MergeRequestRow} (history : KeyedTable HistoryRow)

theorem acknowledgeActiveAdmission {mrIid : ℕ} {key : Option String}
    (h : QueueManager.acknowledgeActiveAdmission projectId mrIid key now table = .ok table') :
    SameElsewhere projectId ⟨table, history⟩ ⟨table', history⟩ := by
  unfold QueueManager.acknowledgeActiveAdmission at h
  split at h
  · next key row hrow =>
      obtain ⟨hmem, hkey⟩ := KeyedTable.byKey_eq_some_iff.mp hrow
      simp only [key_mergeRequestRow, Prod.mk.injEq] at hkey
      split at h
      · split at h
        · cases h
          exact refl
        · split_ifs at h
          cases h
          exact refl
        · simp only at h
          split_ifs at h
          · cases h
            refine updateWhere fun r hr hhit ↦ ?_
            simp only [Bool.and_eq_true, decide_eq_true_eq] at hhit
            rw [table.eq_of_rowId_eq hr hmem hhit.1.1]
            exact hkey.1
          · cases h
            exact refl
      · cases h
        exact refl
  · cases h
    exact refl

theorem executeUpdates {updates : List ActivationUpdate}
    (h : updates.foldlM (executeUpdate projectId) table = .ok table') :
    SameElsewhere projectId ⟨table, history⟩ ⟨table', history⟩ := by
  induction updates generalizing table with
  | nil =>
      cases h
      exact refl
  | cons update updates ih =>
      rw [List.foldlM_cons] at h
      obtain ⟨between, hupdate, h⟩ := bind_eq_ok.mp h
      obtain rfl := QueueOp.executeUpdate_eq_ok hupdate
      refine trans ?_ (ih h)
      refine updateWhere fun r _ hhit ↦ ?_
      simp only [ActivationUpdate.selects, Bool.and_eq_true, decide_eq_true_eq] at hhit
      exact hhit.1.1.1

end Tables

theorem updateHotfixStatus {mrIid : ℕ} {isHotfix : Bool} {labels : List String}
    {expectedRevision : Option (ℕ × ℕ)} {notifyPositions : Bool} {admissionKey : Option String}
    {isAutomated : Option Bool} {changed : Bool}
    (h : qm.updateHotfixStatus projectId mrIid isHotfix labels expectedRevision notifyPositions
      admissionKey isAutomated now tokens db = .ok (changed, db')) :
    SameElsewhere projectId db db' := by
  unfold QueueManager.updateHotfixStatus at h
  obtain ⟨⟨hotfix, automated⟩, -, h⟩ := bind_eq_ok.mp h
  obtain ⟨table, hack, h⟩ := bind_eq_ok.mp h
  cases h
  refine trans ?_ (trans (acknowledgeActiveAdmission db.history hack) ?_)
  · refine updateWhere fun r _ hhit ↦ ?_
    simp only [Bool.and_eq_true, decide_eq_true_eq] at hhit
    exact hhit.1.1.1.2
  · exact stageFeedback_if

theorem activatePriorities {summary : ActivationSummary}
    (h : qm.activatePriorities projectId tokens db = .ok (summary, db')) :
    SameElsewhere projectId db db' := by
  unfold QueueManager.activatePriorities QueueManager.activateFrom at h
  split at h
  · cases h
  · obtain ⟨table, hupdates, h⟩ := bind_eq_ok.mp h
    cases h
    exact (executeUpdates db.history hupdates).trans stageFeedback

theorem replaceRequeue {queueId : ℕ} {allowActive done : Bool} {saved : Option Requeue}
    {pending : Requeue}
    (h : QueueManager.replaceRequeue projectId queueId allowActive saved pending db =
      .ok (done, db')) : SameElsewhere projectId db db' := by
  unfold QueueManager.replaceRequeue at h
  simp only at h
  split at h
  · cases h
    refine updateWhere fun r _ hhit ↦ ?_
    simp only [Bool.and_eq_true] at hhit
    exact (requestsOwnRow_of_mayWriteRequeue hhit.1).1
  · cases h

theorem writeRequeue {queueId : ℕ} {incoming : Incoming} {allowActive done : Bool} {token : Uuid}
    (h : QueueManager.writeRequeue projectId queueId incoming allowActive token db =
      .ok (done, db')) : SameElsewhere projectId db db' := by
  unfold QueueManager.writeRequeue at h
  split at h
  · cases h
    exact refl
  · split at h
    · cases h
      exact refl
    · exact replaceRequeue h

theorem refreshRequeueLabels {queueId : ℕ} {labels : List String} {eventAt : Option ℤ}
    {precisionUs : ℤ} {allowActive done : Bool}
    (h : QueueManager.refreshRequeueLabels projectId queueId labels eventAt precisionUs allowActive
      db = .ok (done, db')) : SameElsewhere projectId db db' := by
  unfold QueueManager.refreshRequeueLabels at h
  split at h
  · cases h
    exact refl
  · split at h
    · cases h
      exact refl
    · split at h
      · cases h
        exact refl
      · exact replaceRequeue h

theorem addToQueue {mr : MergeRequest} {isHotfix : Bool} {item : Option QueueItem}
    (h : qm.addToQueue projectId mr isHotfix now db = .ok (item, db')) :
    SameElsewhere projectId db db' := by
  unfold QueueManager.addToQueue at h
  obtain ⟨⟨hotfix, automated⟩, -, h⟩ := bind_eq_ok.mp h
  cases h
  have hdelete : SameElsewhere projectId db
      { db with
        mergeRequests :=
          db.mergeRequests.deleteWhere fun r ↦ r.iid = mr.iid && r.projectId = projectId } := by
    refine deleteWhere fun r _ hhit ↦ ?_
    simp only [Bool.and_eq_true, decide_eq_true_eq] at hhit
    exact hhit.2
  exact (hdelete.ite refl).trans (ite (insertMr rfl) refl)

theorem prepareCompletion {mrIid : ℕ} {request : CompletionRequest} {answer : Option QueueItem}
    (h : QueueManager.prepareCompletion projectId mrIid request now db = .ok (answer, db')) :
    SameElsewhere projectId db db' := by
  rcases QueueOp.prepareCompletion_eq_ok h with
    ⟨rfl, -⟩ | ⟨rfl, -⟩ | ⟨row, hrow, -, -, hhistory, -, hrows, -⟩
  · exact refl
  · exact refl
  · obtain ⟨hmem, hkey⟩ := KeyedTable.byKey_eq_some_iff.mp hrow
    simp only [key_mergeRequestRow, Prod.mk.injEq] at hkey
    refine ⟨.of_rows_eq_map hrows (fun r _ ↦ ?_) fun r hr hother ↦ if_neg fun hid ↦ ?_, ?_⟩
    · split_ifs <;> rfl
    · rw [db.mergeRequests.eq_of_rowId_eq hr hmem hid] at hother
      exact of_decide_eq_true hother hkey.1
    · rw [hhistory]
      exact .refl

/-- The row that is archived tells where its history and its request belong. -/
theorem finalizeCompletion {item : QueueItem} {payload : CompletionPayload} {done : Bool}
    (hdb : db.Owned)
    (h : qm.finalizeCompletion projectId item payload now tokens db = .ok (done, db')) :
    SameElsewhere projectId db db' := by
  rcases QueueOp.finalizeCompletion_eq_ok h with
    ⟨-, rfl⟩ | ⟨-, ⟨r, hr, hproject, -, hpending, hrequeue⟩, db₁, hdb₁, rfl⟩
  · exact refl
  · have harchived : SameElsewhere projectId db (QueueOp.archived projectId item payload db) := by
      refine (deleteWhere fun r _ hhit ↦ ?_).trans (insertHistory ?_)
      · simp only [Bool.and_eq_true, decide_eq_true_eq] at hhit
        exact hhit.1.1.1
      · exact ((hdb r hr).history payload hpending).trans hproject
    refine harchived.trans (trans ?_ stageFeedback)
    rcases hdb₁ with ⟨-, rfl⟩ | ⟨requeue, hsaved, -, htransfer⟩
    · exact refl
    · obtain ⟨admission, hotfix, automated, hadmission, -, rfl⟩ :=
        QueueOp.transferRequeue_eq_ok htransfer
      refine (insertMr ?_).trans (updateWhere fun r _ hhit ↦ ?_)
      · exact ((hdb r hr).requests requeue (hrequeue.trans hsaved) admission hadmission).trans
          hproject
      · simp only [Bool.and_eq_true, decide_eq_true_eq] at hhit
        exact hhit.1

/-- A call that concerns one project leaves all others as they are. -/
theorem exec {op : QueueOp} {answer : op.Answer} (hdb : db.Owned) (hop : op.Concerns projectId)
    (h : op.exec qm now tokens db = .ok (answer, db')) : SameElsewhere projectId db db' := by
  obtain rfl := hop.project_eq
  cases op with
  | addToQueue => exact addToQueue h
  | getQueueItem | getActiveQueue | getPendingCompletions | getStaleMrs | getMrState =>
      cases h
      exact refl
  | removeFromQueue | markStaleWarningSent | clearPendingNotification | saveCompletionProgress =>
      cases h
      refine updateWhere fun r _ hhit ↦ ?_
      simp only [Bool.and_eq_true, decide_eq_true_eq] at hhit
      tauto
  | updateMrState =>
      obtain ⟨-, rfl⟩ := QueueOp.updateMrState_eq_ok h
      refine updateWhere fun r _ hhit ↦ ?_
      simp only [Bool.and_eq_true, decide_eq_true_eq] at hhit
      exact hhit.1.2
  | stageCompletionPositions =>
      cases h
      exact stageFeedback
  | updateHotfixStatus => exact updateHotfixStatus h
  | activatePriorities => exact activatePriorities h
  | deferRequeue | cancelRequeue => exact writeRequeue h
  | refreshRequeueLabels => exact refreshRequeueLabels h
  | prepareCompletion => exact prepareCompletion h
  | finalizeCompletion => exact finalizeCompletion hdb h
  | completeMr project mrIid outcome expectedQueueId =>
      rcases QueueOp.completeMr_eq (Except.ok.inj h) with rfl | ⟨hit, row, hhit, hfind, rfl⟩
      · exact refl
      · have hproject (r : MergeRequestRow) (hr : hit r = true) : r.projectId = project := by
          rw [hhit] at hr
          simp only [Bool.and_eq_true, decide_eq_true_eq] at hr
          exact hr.1.1.1
        exact (deleteWhere fun r _ hr ↦ hproject r hr).trans
          (insertHistory (hproject row (List.find?_some hfind)))
  | cleanupOldEntries =>
      cases h
      refine deleteWhere fun r _ hhit ↦ ?_
      simp only [Bool.and_eq_true, decide_eq_true_eq] at hhit
      exact hhit.1.2

end SameElsewhere

/-! ## What a call hands out -/

theorem mem_of_selectQueueItem {db : Database} {projectId mrIid : ℕ} {item : QueueItem}
    (h : item ∈ (db.selectQueueItem projectId mrIid).toList) : item.projectId = projectId := by
  obtain ⟨r, hr, rfl⟩ := Option.map_eq_some_iff.mp (Option.mem_toList.mp h)
  have hkey := KeyedTable.key_of_byKey hr
  simp only [key_mergeRequestRow, Prod.mk.injEq] at hkey
  exact hkey.1

namespace QueueOp

variable {qm : QueueManager} {now : ℤ} {tokens : ℕ → Uuid} {op : QueueOp} {db db' : Database}
  {answer : op.Answer}

theorem exec_items_project (h : op.exec qm now tokens db = .ok (answer, db')) {item : QueueItem}
    (hitem : item ∈ op.items answer) : item.projectId = op.project := by
  have hselected {rows : List MergeRequestRow} {projectId : ℕ}
      (hrows : ∀ r ∈ rows, r.projectId = projectId) (hitem : item ∈ rows.map rowToQueueItem) :
      item.projectId = projectId := by
    obtain ⟨r, hr, rfl⟩ := List.mem_map.mp hitem
    exact hrows r hr
  cases op with
  | addToQueue projectId mr isHotfix =>
      simp only [exec, QueueManager.addToQueue] at h
      obtain ⟨⟨hotfix, automated⟩, -, h⟩ := bind_eq_ok.mp h
      cases h
      exact mem_of_selectQueueItem hitem
  | getQueueItem =>
      cases h
      exact mem_of_selectQueueItem hitem
  | getActiveQueue =>
      cases h
      exact hselected (fun _ hr ↦ (mem_selectActiveQueue hr).2) hitem
  | getPendingCompletions =>
      cases h
      refine hselected (fun r hr ↦ ?_) hitem
      obtain ⟨-, hr⟩ := List.mem_filter.mp hr
      rw [Bool.and_eq_true, decide_eq_true_eq] at hr
      exact hr.1
  | getStaleMrs =>
      cases h
      refine hselected (fun r hr ↦ ?_) hitem
      rw [List.mem_insertionSort, List.mem_filter] at hr
      simp only [Bool.and_eq_true, decide_eq_true_eq] at hr
      exact hr.2.1.1.1
  | prepareCompletion projectId mrIid request =>
      have hrow {row : MergeRequestRow} (hrow : row ∈ db.row projectId mrIid) :
          row.projectId = projectId := by
        have hkey := KeyedTable.key_of_byKey hrow
        simp only [key_mergeRequestRow, Prod.mk.injEq] at hkey
        exact hkey.1
      rcases prepareCompletion_eq_ok h with
        ⟨-, rfl, -⟩ | ⟨-, row, hmem, -, -, rfl⟩ | ⟨row, hmem, -, -, -, -, -, rfl⟩
      · cases hitem
      · cases List.mem_singleton.mp hitem
        exact hrow hmem
      · cases List.mem_singleton.mp hitem
        exact hrow hmem
  | _ => simp [items] at hitem

/-- The outcome that an item shows is about its project too. -/
theorem exec_items_of {projectId : ℕ} (hdb : db.Owned) (hop : op.Concerns projectId)
    (h : op.exec qm now tokens db = .ok (answer, db')) {item : QueueItem}
    (hitem : item ∈ op.items answer) : item.Of projectId := by
  have hproject : item.projectId = projectId :=
    (exec_items_project h hitem).trans hop.project_eq
  obtain ⟨r, hr, hshows⟩ := exec_items h hitem
  refine ⟨hproject, fun payload hpayload ↦ ?_⟩
  refine ((hdb.exec hop h r hr).history payload ?_).trans (hshows.projectId.symm.trans hproject)
  exact hshows.pendingCompletion.symm.trans hpayload

end QueueOp

/-! ## The tasks of a process -/

/-- What a task is started for. -/
inductive BotJob
  | activation
  | processor
  | sync
  | mergeRequestEvent (event : MergeRequestEvent)
  | pipelineEvent (event : PipelineEvent)

/-- A task with the settings of its project. -/
structure BotTask where
  settings : Settings
  job : BotJob

namespace BotTask

def project (task : BotTask) : ℕ := task.settings.gitlabProjectId

/-- The queue manager is shared. -/
def body (qm : QueueManager) (task : BotTask) : Prog Unit :=
  let settings := { task.settings with qm }
  match task.job with
  | .activation => do
      let _ ← Prog.db (.activatePriorities settings.gitlabProjectId)
      return ()
  | .processor => MergeProcessor.run settings
  | .sync => do
      let _ ← QueueScheduler.syncQueue settings
      return ()
  | .mergeRequestEvent event => MRWebhookHandler.handle settings event
  | .pipelineEvent event => PipelineWebhookHandler.handle settings event

theorem orderly_body (qm : QueueManager) (given : Learnt) (task : BotTask) :
    (task.body qm).Orderly task.settings given 0 := by
  obtain ⟨settings, job⟩ := task
  change Prog.Orderly { settings with qm } given 0 _
  cases job with
  | activation =>
      refine orderly_return (Interleave.Program.Nests.call rfl rfl ?_ fun _ _ ↦ trivial)
      exact fun lock hlock ↦ Nat.zero_le _
  | processor => exact MergeProcessor.orderly_run
  | sync => exact orderly_return QueueScheduler.orderly_syncQueue
  | mergeRequestEvent event => exact MRWebhookHandler.orderly_handle event
  | pipelineEvent event => exact PipelineWebhookHandler.orderly_handle event

end BotTask

/-- Some lock that the operation takes is held. -/
def World.blocks (w : World) (op : Op) : Bool :=
  op.lockUse.needs.any fun lock ↦ w.locks.any fun entry ↦ lock = .shared entry.1

/-- An operation whose lock is held waits for it, or fails before it has done anything. -/
def World.serve (qm : QueueManager) (thread : ℕ) (choice : Choice) (op : Op) (w : World) :
    Option (Except PyError op.Answer × World) :=
  if w.blocks op && choice.fault.all Fault.applied then none
  else w.exec qm thread choice op

/-- Which task holds which lock. -/
def World.holders (w : World) : List (ProcessLock × ℕ) :=
  w.locks.map fun entry ↦ (.shared entry.1, entry.2)

/-- All tasks of a process.  A restart starts from what the database holds. -/
def botSystem (qm : QueueManager) : System Op Op.Answer Local PyError where
  World := World
  Choice := Choice
  Entry := BotTask
  exec := World.serve qm
  body := BotTask.body qm
  init := fun _ ↦ {}
  arrive := fun _ w ↦ w
  crash := fun w ↦ { w with locks := [] }

def botPlan (qm : QueueManager) : LockPlan (botSystem qm) ProcessLock where
  order := lockOrder
  terms := fun task ↦ projectTerms task.project ⟨fun _ ↦ True, fun _ _ _ ↦ True⟩
  inv := fun w : World ↦ w.db.Owned
  held := World.holders
  patient := fun choice : Choice ↦ choice.fault = none

namespace World

variable {qm : QueueManager} {thread : ℕ} {choice : Choice} {op : Op} {w w' : World}
  {answer : Except PyError op.Answer}

theorem held_eq_false_iff {lock : LockName} :
    w.held lock = false ↔ ProcessLock.shared lock ∉ w.holders.map Prod.fst := by
  simp only [World.held, World.holders, List.any_eq_false, decide_eq_true_eq, List.mem_map,
    not_exists, not_and]
  constructor
  · rintro h owner ⟨entry, hentry, rfl⟩ heq
    exact h entry hentry (ProcessLock.shared.inj heq)
  · rintro h entry hentry rfl
    exact h _ ⟨entry, hentry, rfl⟩ rfl

theorem exec_of_serve (h : World.serve qm thread choice op w = some (answer, w')) :
    World.exec qm thread choice op w = some (answer, w') := by
  unfold World.serve at h
  split at h
  · cases h
  · exact h

theorem holders_exec (h : World.exec qm thread choice op w = some (answer, w')) :
    w'.holders = op.lockUse.change thread answer.isOk w.holders := by
  cases op with
  | acquire lock =>
      rcases exec_acquire h with ⟨rfl, e, rfl⟩ | ⟨rfl, -, rfl⟩
      · rfl
      · rfl
  | release lock =>
      cases h
      unfold holders LockUse.change
      simp only [Op.lockUse]
      rw [List.filter_map]
      congr 1
      refine List.filter_congr fun entry _ ↦ ?_
      simp [Prod.ext_iff]
  | db op =>
      unfold holders
      rw [(exec_db h).1]
      rfl
  | gitlab | now | uuid | shutdownRequested | sleep | broadcast =>
      unfold holders
      rw [exec_locks_eq h (fun _ ↦ nofun) fun _ ↦ nofun]
      rfl

/-- Whatever a task of one project asks for, the others keep what they have. -/
theorem exec_concerns {projectId : ℕ} (hdb : w.db.Owned) (hop : op.Concerns projectId)
    (h : World.exec qm thread choice op w = some (answer, w')) :
    w'.db.Owned ∧ op.Tells projectId answer ∧ SameElsewhere projectId w.db w'.db := by
  cases op with
  | db op =>
      rcases (exec_db h).2.2 with ⟨hsame, e, rfl⟩ | ⟨a, hexec, hanswer⟩
      · rw [hsame]
        exact ⟨hdb, trivial, .refl⟩
      · refine ⟨hdb.exec hop hexec, ?_, .exec hdb hop hexec⟩
        rcases hanswer with rfl | ⟨e, rfl⟩
        · exact fun item hitem ↦ QueueOp.exec_items_of hdb hop hexec hitem
        · trivial
  | acquire | release | gitlab | now | uuid | shutdownRequested | sleep | broadcast =>
      rw [exec_db_eq h fun _ ↦ nofun]
      exact ⟨hdb, trivial, .refl⟩

/-- Without a fault, only a lock that is held delays an operation. -/
theorem serve_of_free (qm : QueueManager) (thread : ℕ) {op : Op} {w : World}
    (hfree : ∀ lock ∈ op.lockUse.needs, lock ∉ w.holders.map Prod.fst) :
    ∃ choice : Choice, choice.fault = none ∧ ∃ answer w',
      World.serve qm thread choice op w = some (answer, w') := by
  let choice : Choice := { gitlab := answersFor (waitingMr 1) }
  have hserve : World.serve qm thread choice op w = World.exec qm thread choice op w := by
    refine if_neg fun hblocks ↦ ?_
    obtain ⟨lock, hlock, hheld⟩ := List.any_eq_true.mp ((Bool.and_eq_true _ _).mp hblocks).1
    obtain ⟨entry, hentry, heq⟩ := List.any_eq_true.mp hheld
    refine hfree lock hlock (List.mem_map.mpr ⟨_, List.mem_map_of_mem hentry, ?_⟩)
    exact (of_decide_eq_true heq).symm
  refine ⟨choice, rfl, ?_⟩
  rw [hserve]
  cases op with
  | acquire lock =>
      have hnone : w.held lock = false :=
        held_eq_false_iff.mpr (hfree (.shared lock) List.mem_cons_self)
      exact ⟨.ok (), _, if_neg (by simp [hnone])⟩
  | db | release | gitlab | now | uuid | shutdownRequested | sleep | broadcast => exact ⟨_, _, rfl⟩

end World

theorem botPlan_sound (qm : QueueManager) : (botPlan qm).Sound where
  body task := task.orderly_body qm _
  init _ _ h := by cases h
  exec _ _ _ _ _ _ _ hw hop h := by
    have hexec := World.exec_of_serve h
    obtain ⟨hdb, htells, -⟩ := World.exec_concerns hw (Op.Proper.concerns hop) hexec
    have hgives : Op.Gives _ ⟨fun _ ↦ True, fun _ _ _ ↦ True⟩ _ _ :=
      ⟨fun item hitem ↦ ⟨htells.items item hitem, trivial, fun _ _ _ ↦ trivial⟩,
        fun _ _ _ ↦ trivial⟩
    exact ⟨hdb, hgives, World.holders_exec hexec⟩
  free := by
    rintro i choice op answer w w' lock h huse hok hmem
    cases op with
    | acquire name =>
        cases huse
        rcases World.exec_acquire (World.exec_of_serve h) with ⟨-, e, rfl⟩ | ⟨-, hfree, -⟩
        · cases hok
        · exact World.held_eq_false_iff.mp hfree hmem
    | db | release | gitlab | now | uuid | shutdownRequested | sleep | broadcast => cases huse
  enabled i _ _ hfree := World.serve_of_free qm i hfree
  arrive _ _ hw := ⟨hw, rfl⟩
  crash _ hw := ⟨hw, rfl⟩

/-! ## Every run -/

/-- The process as it starts for the first time. -/
def firstStart (qm : QueueManager) : Config (botSystem qm) :=
  { world := ({ db := Database.empty } : World) }

theorem firstStart_inOrder (qm : QueueManager) : (firstStart qm).InOrder (botPlan qm) where
  inv r hr := by cases hr
  nests i entry task h := by cases h
  present entry h := by cases h
  unique := List.nodup_nil

/-- Whatever happened, a lock has one holder, which has not ended; and if GitLab and the
database answer from here on, all tasks can come to their end, after which no lock is held. -/
theorem tasks_never_deadlock (qm : QueueManager) (moves : List (Move (botSystem qm))) :
    let c := (firstStart qm).run moves
    (c.world.holders.map Prod.fst).Nodup ∧
    (∀ lock i, (lock, i) ∈ c.world.holders →
      ∃ task t, c.threads[i]? = some (task, t) ∧ t.Waits) ∧
    ∃ rest : List (Move (botSystem qm)),
      (∀ move ∈ rest, ∃ (i : ℕ) (choice : Choice),
        choice.fault = none ∧ move = .step i choice) ∧
      (∀ thread ∈ (c.run rest).threads, ¬thread.2.Waits) ∧
      (c.run rest).world.holders = [] := by
  have hc := (firstStart_inOrder qm).run (botPlan_sound qm) moves
  exact ⟨hc.unique, fun _ _ h ↦ hc.holder_waits h, hc.exists_end (botPlan_sound qm)⟩

/-- A task is given rows of its own project only, and acts on that project only. -/
theorem tasks_see_own_project (qm : QueueManager) (moves : List (Move (botSystem qm)))
    (e : Event (botSystem qm)) (he : e ∈ (firstStart qm).events moves) :
    e.op.Concerns e.entry.project ∧ e.op.Tells e.entry.project e.answer := by
  have hterms := (firstStart_inOrder qm).terms_of_mem_events (botPlan_sound qm) he
  exact ⟨Op.Proper.concerns hterms.1, Op.Gives.tells hterms.2.1⟩

/-- A webhook about a merge request that carries the queue label. -/
def triggerEvent (iid : ℕ) (action : EventAction) (state : MrState) : MergeRequestEvent :=
  { iid, title := "Fix the build", state, action, targetBranch := "master", userId := 3,
    labels := ["merge_queue"] }

/-- The task number `thread`, which handles the webhook to its end. -/
def webhookMoves (projectId thread : ℕ) (event : MergeRequestEvent) (now : ℤ) :
    List (Move (botSystem {})) :=
  .start { settings := { gitlabProjectId := projectId, rounds := 1 },
           job := .mergeRequestEvent event } ::
    List.replicate 30 (.step thread
      ({ now, gitlab := answersFor (waitingMr event.iid) } : Choice))

/-- In the project 1 a merge request was merged and another one waits. -/
def firstProject : List (Move (botSystem {})) :=
  webhookMoves 1 0 (triggerEvent 7 .update .opened) 0 ++
    webhookMoves 1 1 (triggerEvent 7 .merge .merged) 5000000 ++
    webhookMoves 1 2 (triggerEvent 8 .update .opened) 6000000

/-- Then a merge request of the project 2 is queued. -/
def secondProject : List (Move (botSystem {})) :=
  webhookMoves 2 3 (triggerEvent 9 .update .opened) 7000000

theorem second_project_sees_own :
    ∃ e ∈ (firstStart {}).events (firstProject ++ secondProject),
      (World.db e.before).mergeRequests.rows.map (fun r ↦ (r.projectId, r.iid)) =
        [(1, 8), (2, 9)] ∧
      (Op.items e.op e.answer).map QueueItem.mrIid = [9] ∧ Op.Concerns 2 e.op ∧
      Op.Tells 2 e.op e.answer := by
  have hshown : ((firstStart {}).events (firstProject ++ secondProject)).any (fun e ↦
      decide ((World.db e.before).mergeRequests.rows.map (fun r ↦ (r.projectId, r.iid)) =
        [(1, 8), (2, 9)]) && decide ((Op.items e.op e.answer).map QueueItem.mrIid = [9]) &&
        decide (BotTask.project e.entry = 2)) = true := by
    decide +kernel
  obtain ⟨e, he, hshown⟩ := List.any_eq_true.mp hshown
  simp only [Bool.and_eq_true, decide_eq_true_eq] at hshown
  obtain ⟨⟨hrows, hitems⟩, hproject⟩ := hshown
  obtain ⟨hconcerns, htells⟩ := tasks_see_own_project {} _ e he
  rw [hproject] at hconcerns htells
  exact ⟨e, he, hrows, hitems, hconcerns, htells⟩

/-- As long as only tasks of other projects do anything, the queue and the history of a
project stay as they are. -/
theorem other_projects_unchanged (qm : QueueManager) (earlier moves : List (Move (botSystem qm)))
    (projectId : ℕ)
    (h : ∀ e ∈ ((firstStart qm).run earlier).events moves, e.entry.project ≠ projectId) :
    (((firstStart qm).run earlier).run moves).world.db.ofProject projectId =
      ((firstStart qm).run earlier).world.db.ofProject projectId := by
  have hc := (firstStart_inOrder qm).run (botPlan_sound qm) earlier
  let R (w w' : World) : Prop := w'.db.ofProject projectId = w.db.ofProject projectId
  have hevents : ∀ e ∈ ((firstStart qm).run earlier).events moves, R e.before e.after := by
    intro e he
    obtain ⟨hproper, -, hdb⟩ := hc.terms_of_mem_events (botPlan_sound qm) he
    have hconcerns := Op.Proper.concerns hproper
    obtain ⟨choice, hexec⟩ := Config.exec_of_mem_events he
    have hsame := World.exec_concerns hdb hconcerns (World.exec_of_serve hexec)
    exact hsame.2.2.ofProject_eq (h e he).symm
  exact Config.run_relates (S := botSystem qm) (R := R) (fun _ ↦ rfl)
    (fun _ _ _ huv hvw ↦ Eq.trans hvw huv) (fun _ _ ↦ rfl) (fun _ ↦ rfl) hevents

theorem second_project_leaves_first :
    (((firstStart {}).run firstProject).run secondProject).world.db.ofProject 1 =
      ((firstStart {}).run firstProject).world.db.ofProject 1 ∧
    (((firstStart {}).run firstProject).world.db.ofProject 1).1.map (fun r ↦ r.iid) = [8] ∧
    (((firstStart {}).run firstProject).world.db.ofProject 1).2.map (fun h ↦ h.values.iid) = [7] ∧
    ((((firstStart {}).run firstProject).run secondProject).world.db.ofProject 2).1.map
      (fun r ↦ r.iid) = [9] := by
  have hevents : (((firstStart {}).run firstProject).events secondProject).all
      (fun e ↦ decide (BotTask.project e.entry ≠ 1)) = true := by
    decide +kernel
  refine ⟨other_projects_unchanged {} firstProject secondProject 1 fun e he ↦ ?_, ?_, ?_, ?_⟩
  · exact of_decide_eq_true (List.all_eq_true.mp hevents e he)
  · decide +kernel
  · decide +kernel
  · decide +kernel

end MergeQueue
