import MergeQueue.MergeTruth
import MergeQueue.RequeueOrder
import MergeQueue.StaleEnqueue

/-!
# Removals that arrive late

A webhook that asks for a removal is not compared with the time at which the row was
queued.  Only the events that the row remembers are left alone, and a row that an
enqueue made remembers none.
-/

namespace MergeQueue

open Interleave (Program)
open Interleave.Program (Finishes Leaves Reaches)
open QueueManager

/-! ## A lifecycle under way -/

/-- The lifecycle of the row `id` goes on: no completion is prepared for it. -/
def UnderWay (projectId mrIid id : ℕ) (db : Database) : Prop :=
  ∃ r, db.row projectId mrIid = some r ∧ r.id = id ∧ r.status.active = true ∧
    r.pendingCompletion = none

/-- The operations that end no lifecycle and start none. -/
def QueueOp.gentle : QueueOp → Bool
  | getQueueItem .. | getActiveQueue .. | getPendingCompletions .. | getStaleMrs ..
  | getMrState .. | clearPendingNotification .. | stageCompletionPositions ..
  | markStaleWarningSent .. | updateHotfixStatus .. | activatePriorities .. | deferRequeue ..
  | cancelRequeue .. | refreshRequeueLabels .. => true
  | _ => false

def Op.gentle : Op → Prop
  | .db op => op.gentle = true
  | _ => True

theorem Op.gentle_of_delivers {op : Op} (h : op.delivers = true) : op.gentle := by
  unfold Op.delivers at h
  split at h <;> first | rfl | trivial

/-- A gentle operation changes neither the state of a row nor its frozen outcome. -/
theorem rowChange_of_gentle {now : ℤ} {op : QueueOp} {r r' : MergeRequestRow}
    (hop : op.gentle = true) (h : op.RowChange now r r') :
    r'.status = r.status ∧ r'.pendingCompletion = r.pendingCompletion := by
  cases op with
  | getQueueItem | getActiveQueue | getPendingCompletions | getStaleMrs | getMrState =>
      cases h
      exact ⟨rfl, rfl⟩
  | clearPendingNotification | stageCompletionPositions =>
      obtain ⟨note, rfl⟩ := h
      exact ⟨rfl, rfl⟩
  | updateHotfixStatus | activatePriorities =>
      obtain ⟨_, _, _, _, _, _, rfl, -⟩ := h
      exact ⟨rfl, rfl⟩
  | markStaleWarningSent =>
      rcases h with rfl | ⟨-, -, rfl⟩ <;> exact ⟨rfl, rfl⟩
  | deferRequeue | cancelRequeue =>
      rcases h with rfl | ⟨-, _, _, -, rfl⟩ <;> exact ⟨rfl, rfl⟩
  | refreshRequeueLabels =>
      rcases h with rfl | ⟨-, _, _, -, -, rfl⟩ <;> exact ⟨rfl, rfl⟩
  | addToQueue | removeFromQueue | updateMrState | prepareCompletion | saveCompletionProgress
  | finalizeCompletion | completeMr | cleanupOldEntries => cases hop

section UnderWay

variable {projectId mrIid id : ℕ} {qm : QueueManager} {now : ℤ} {tokens : ℕ → Uuid}
  {db db' : Database}

theorem UnderWay.exec {op : QueueOp} {a : op.Answer} (h : UnderWay projectId mrIid id db)
    (hop : op.gentle = true) (hexec : op.exec qm now tokens db = .ok (a, db')) :
    UnderWay projectId mrIid id db' := by
  obtain ⟨r, hr, hid, hactive, hopen⟩ := h
  obtain ⟨hmem, hkey⟩ := KeyedTable.byKey_eq_some_iff.mp hr
  have hspared : ¬ op.Deletes r := by
    intro hdeletes
    cases op <;> first | exact hdeletes | cases hop
  obtain ⟨r', hr', hid', hproject, hiid, hchange⟩ := QueueOp.exec_row hexec hmem hspared
  obtain ⟨hstatus, hpending⟩ := rowChange_of_gentle hop hchange
  refine ⟨r', KeyedTable.byKey_eq_some_iff.mpr ⟨hr', ?_⟩, hid'.trans hid, ?_, ?_⟩
  · simp only [key_mergeRequestRow, hproject, hiid]
    exact hkey
  · rw [hstatus]
    exact hactive
  · rw [hpending]
    exact hopen

theorem UnderWay.selectQueueItem (h : UnderWay projectId mrIid id db) :
    ∃ item, db.selectQueueItem projectId mrIid = some item ∧ item.queueId = id ∧
      item.state.active = true ∧ item.pendingCompletion = none := by
  obtain ⟨r, hr, hid, hactive, hopen⟩ := h
  refine ⟨rowToQueueItem r, by rw [Database.selectQueueItem, hr]; rfl, hid, hactive, ?_⟩
  rw [rowToQueueItem_pendingCompletion, hopen]

theorem refreshRequeueLabels_saves {row : MergeRequestRow} (labels : List String)
    (eventAt : Option ℤ) (precisionUs : ℤ) (hrow : db.mergeRequests.byId id = some row)
    (hmay : mayWriteRequeue projectId id true row = true) :
    ∃ db', refreshRequeueLabels projectId id labels eventAt precisionUs true db =
      .ok (true, db') := by
  have hfind : db.mergeRequests.rows.find? (mayWriteRequeue projectId id true) = some row :=
    KeyedTable.find?_eq_some_of_byId hrow hmay fun s hs ↦ rowId_of_mayWriteRequeue hs
  simp only [refreshRequeueLabels, hfind]
  cases hsaved : row.requeueRequest with
  | none => exact ⟨_, rfl⟩
  | some saved =>
      cases hpending : refreshedRequeue saved labels { requestedAt := eventAt, precisionUs } with
      | none => exact ⟨db, by simp only [hpending]⟩
      | some pending =>
          have hany : (db.mergeRequests.rows.any fun r ↦
              mayWriteRequeue projectId id true r && r.requeueRequest = some saved) = true :=
            List.any_eq_true.mpr ⟨row, (KeyedTable.byId_eq_some_iff.mp hrow).1,
              by simp [hmay, hsaved]⟩
          simp only [hpending, replaceRequeue, hany, if_true]
          exact ⟨_, rfl⟩

/-- The row of a lifecycle under way accepts a request. -/
theorem UnderWay.mayWrite (h : UnderWay projectId mrIid id db) :
    ∃ row, db.mergeRequests.byId id = some row ∧
      mayWriteRequeue projectId id true row = true := by
  obtain ⟨r, hr, rfl, hactive, -⟩ := h
  have hproject : r.projectId = projectId := congrArg Prod.fst (KeyedTable.key_of_byKey hr)
  exact ⟨r, KeyedTable.byId_eq_some_iff.mpr ⟨KeyedTable.mem_of_byKey hr, rfl⟩,
    by simp [mayWriteRequeue, hproject, hactive]⟩

end UnderWay

namespace MRWebhookHandler

/-- The event asks for the end of the lifecycle. -/
def asksRemoval (settings : Settings) (event : MergeRequestEvent) : Bool :=
  match event.action with
  | .unlabeled => shouldRemove settings event
  | .close => true
  | .update => !hasQueueTrigger settings event.labels &&
      (wasQueueLabelRemoved settings event || wasHotfixLabelRemoved settings event)
  | _ => false

theorem shouldRemove_of_asksRemoval {settings : Settings} {event : MergeRequestEvent}
    (haction : event.action = .update) (h : asksRemoval settings event = true) :
    shouldRemove settings event = true := by
  simp only [asksRemoval, haction, Bool.and_eq_true, Bool.not_eq_true'] at h
  obtain ⟨hqueue, hhotfix⟩ := Bool.or_eq_false_iff.mp h.1
  simpa only [shouldRemove, hqueue, hhotfix, Bool.not_false, Bool.and_true] using h.2

theorem handle_of_removal {settings : Settings} {event : MergeRequestEvent}
    (haction : event.action = .unlabeled ∨ event.action = .update ∨ event.action = .close) :
    handle settings event = (do
      let handled ← resumeCompletion settings event
      if handled then pure ()
      else dispatch settings event) := by
  rcases haction with haction | haction | haction <;> simp only [handle, haction]

/-! ### What spares the lifecycle -/

section Spared

variable {settings : Settings} {event : MergeRequestEvent} {id : ℕ} {s : Local} {db : Database}
  {row : MergeRequestRow}

theorem within_gentle {op : QueueOp} (hop : op.gentle = true)
    (hdb : UnderWay settings.gitlabProjectId event.iid id db) :
    (Prog.db op).Within settings (UnderWay settings.gitlabProjectId event.iid id) s db
      fun _ s' _ ↦ s' = s :=
  Prog.Within.transact hdb fun _ _ _ _ h ↦ ⟨hdb.exec hop h, rfl⟩

theorem within_changeCompletionRequeue {item : QueueItem} {allowActive : Bool}
    (hdb : UnderWay settings.gitlabProjectId event.iid id db) :
    (changeCompletionRequeue settings event item allowActive).Within settings
      (UnderWay settings.gitlabProjectId event.iid id) s db fun _ s' _ ↦ s' = s := by
  unfold changeCompletionRequeue deferCompletionRequeue
  cases event.updatedAt with
  | none =>
      simp only
      split_ifs
      · exact within_gentle rfl hdb
      · exact within_gentle rfl hdb
      · exact Prog.Within.ret hdb rfl
      · exact Prog.Within.ret hdb rfl
  | some eventAt =>
      simp only
      split_ifs
      · exact within_gentle rfl hdb
      · exact within_gentle rfl hdb
      · exact Prog.Within.ret hdb rfl
      · exact within_gentle rfl hdb
      · exact within_gentle rfl hdb

/-- Only a remembered event is dealt with at once. -/
theorem within_admitEvent_underWay (hrow : db.row settings.gitlabProjectId event.iid = some row)
    (hdb : UnderWay settings.gitlabProjectId event.iid row.id db) :
    (admitEvent settings event).Within settings (UnderWay settings.gitlabProjectId event.iid row.id)
      s db fun out _ _ ↦
        out = .inl (ignoredCompletionEvent settings event (rowToQueueItem row)) := by
  refine Prog.Within.withLock hdb ((within_getQueueItem hdb _ _).bind ?_)
  rintro item s' db' hdb ⟨rfl, rfl, rfl⟩
  obtain ⟨r, hr, -, -, hopen⟩ := hdb
  obtain rfl : r = row := Option.some.inj (hr.symm.trans hrow)
  simp only [Database.selectQueueItem, hrow, Option.map_some, rowToQueueItem_pendingCompletion,
    hopen]
  split_ifs with hignored
  · exact Prog.Within.ret hdb (by rw [hignored])
  · rw [Bool.not_eq_true] at hignored
    rw [hignored]
    refine Prog.Within.bind (R := fun _ _ _ ↦ True) ?_ fun _ _ _ hdb _ ↦
      Prog.Within.ret hdb rfl
    unfold admitActiveTrigger
    simp only
    split_ifs
    · exact Prog.Within.ret hdb trivial
    · refine (within_changeCompletionRequeue hdb).bind fun saved _ _ hdb _ ↦ ?_
      split_ifs
      · exact Prog.Within.ret hdb trivial
      · exact Prog.Within.throw hdb
    · exact Prog.Within.ret hdb trivial

theorem gentle_of_refresh {mrIid : ℕ} {labels : List String} {revision : Option (ℕ × ℕ)}
    {notify : Bool} {key : Option String} {op : Op}
    (h : MetadataTask.permits settings (.refresh mrIid labels revision notify key) op) :
    op.gentle := by
  rcases h with rfl | rfl | rfl | ⟨-, hdelivers⟩ | ⟨_, _, _, _, -, -, rfl⟩
  · trivial
  · trivial
  · rfl
  · exact Op.gentle_of_delivers hdelivers
  · rfl

theorem within_refreshQueueItemMetadata
    (hdb : UnderWay settings.gitlabProjectId event.iid id db) :
    (refreshQueueItemMetadata settings event).Within settings
      (UnderWay settings.gitlabProjectId event.iid id) s db fun _ _ _ ↦ True := by
  refine (Prog.Within.of_leaves refresh_leaves (fun q _ _ _ _ _ hq hdb h ↦
    hdb.exec (gentle_of_refresh hq) h) hdb).bind fun updated _ _ hdb _ ↦ ?_
  split_ifs
  · exact within_broadcastQueueUpdate hdb
  · exact Prog.Within.ret hdb trivial

theorem within_dispatch_of_not_asksRemoval
    (haction : event.action = .unlabeled ∨ event.action = .update ∨ event.action = .close)
    (hdb : UnderWay settings.gitlabProjectId event.iid id db)
    (h : asksRemoval settings event = false) :
    (dispatch settings event).Within settings
      (UnderWay settings.gitlabProjectId event.iid id) s db fun _ _ _ ↦ True := by
  rcases haction with haction | haction | haction
  · simp only [asksRemoval, haction] at h
    simp only [dispatch, haction, handleUnlabeled, h]
    refine (within_getQueueItem hdb _ _).bind fun _ _ _ hdb _ ↦ ?_
    exact within_refreshQueueItemMetadata hdb
  · have hkept : ¬ (hasQueueTrigger settings event.labels = false ∧
        (wasQueueLabelRemoved settings event || wasHotfixLabelRemoved settings event) = true) := by
      rintro ⟨htrigger, hremoved⟩
      simp only [asksRemoval, haction, htrigger, hremoved] at h
      cases h
    simp only [dispatch, haction, handleUpdate, hkept, if_false]
    refine (within_getQueueItem hdb _ _).bind ?_
    rintro _ _ db hdb ⟨rfl, rfl, rfl⟩
    obtain ⟨item, hitem, -, hactive, -⟩ := hdb.selectQueueItem
    simp only [hitem, Option.any_some, hactive, if_true]
    split_ifs
    · exact within_refreshQueueItemMetadata hdb
    · exact Prog.Within.ret hdb trivial
  · simp only [asksRemoval, haction] at h
    cases h

end Spared

/-! ### A removal that nothing refuses -/

section Removed

variable {settings : Settings} {event : MergeRequestEvent} {id : ℕ} {s : Local} {log : List Op}
  {w : World} {row : MergeRequestRow}

/-- The locks are free, and the lifecycle is under way. -/
def Ready (settings : Settings) (mrIid id : ℕ) (w : World) : Prop :=
  w.locks = [] ∧ UnderWay settings.gitlabProjectId mrIid id w.db

theorem finishes_gentle {op : QueueOp} {a : op.Answer} (hop : op.gentle = true)
    (hw : UnderWay settings.gitlabProjectId event.iid id w.db)
    (h : ∀ now tokens, ∃ db', op.exec settings.qm now tokens w.db = .ok (a, db')) :
    Finishes (alone settings) (Prog.db op) s log w fun result s' _ w' ↦
      result = .ok a ∧ s' = s ∧ w'.locks = w.locks ∧
        UnderWay settings.gitlabProjectId event.iid id w'.db := by
  refine finishes_db fun now tokens ↦ ?_
  obtain ⟨db', hexec⟩ := h now tokens
  rw [hexec, committed_ok]
  exact ⟨rfl, rfl, rfl, hw.exec hop hexec⟩

theorem finishes_changeCompletionRequeue {item : QueueItem} (hitem : item.queueId = id)
    (hw : UnderWay settings.gitlabProjectId event.iid id w.db) :
    Finishes (alone settings) (changeCompletionRequeue settings event item true) s log w
      fun result s' _ w' ↦ result = .ok true ∧ s' = s ∧ w'.locks = w.locks ∧
        UnderWay settings.gitlabProjectId event.iid id w'.db := by
  obtain ⟨r, hr, hmay⟩ := hw.mayWrite
  subst hitem
  have hdefer : Finishes (alone settings)
      (deferCompletionRequeue settings event item true) s log w fun result s' _ w' ↦
        result = .ok true ∧ s' = s ∧ w'.locks = w.locks ∧
          UnderWay settings.gitlabProjectId event.iid item.queueId w'.db := by
    refine finishes_gentle rfl hw fun now tokens ↦ ?_
    obtain ⟨db', hwrite, -⟩ := writeRequeue_eq _ (tokens 0) hr hmay
    exact ⟨db', hwrite⟩
  unfold changeCompletionRequeue
  simp only
  split_ifs
  · exact hdefer
  · refine finishes_gentle rfl hw fun now tokens ↦ ?_
    exact refreshRequeueLabels_saves _ _ _ hr hmay
  · exact Finishes.ret ⟨rfl, rfl, rfl, hw⟩
  · cases event.updatedAt with
    | none => exact Finishes.ret ⟨rfl, rfl, rfl, hw⟩
    | some eventAt => exact hdefer
  · cases event.updatedAt with
    | none => exact Finishes.ret ⟨rfl, rfl, rfl, hw⟩
    | some eventAt =>
        refine finishes_gentle rfl hw fun now tokens ↦ ?_
        obtain ⟨db', hwrite, -⟩ := writeRequeue_eq _ (tokens 0) hr hmay
        exact ⟨db', hwrite⟩

theorem finishes_admitActiveTrigger {item : QueueItem} (hitem : item.queueId = id)
    (hw : UnderWay settings.gitlabProjectId event.iid id w.db) :
    Finishes (alone settings) (admitActiveTrigger settings event item) s log w
      fun result s' _ w' ↦ result = .ok () ∧ s' = s ∧ w'.locks = w.locks ∧
        UnderWay settings.gitlabProjectId event.iid id w'.db := by
  unfold admitActiveTrigger
  simp only
  split_ifs
  · exact Finishes.ret ⟨rfl, rfl, rfl, hw⟩
  · refine Finishes.bind ((finishes_changeCompletionRequeue hitem hw).mono ?_)
    rintro _ s' log' w' ⟨rfl, rfl, hlocks, hw'⟩
    exact Finishes.ret ⟨rfl, rfl, hlocks, hw'⟩
  · exact Finishes.ret ⟨rfl, rfl, rfl, hw⟩

/-- The trigger of the event is kept with the row, and the handler goes on. -/
theorem finishes_resumeCompletion_underWay
    (hrow : w.db.row settings.gitlabProjectId event.iid = some row)
    (hw : Ready settings event.iid row.id w)
    (hunknown : ignoredCompletionEvent settings event (rowToQueueItem row) = false) :
    Finishes (alone settings) (resumeCompletion settings event) s log w
      fun result s' _ w' ↦ result = .ok false ∧ s' = s ∧ Ready settings event.iid row.id w' := by
  obtain ⟨hlocks, hway⟩ := hw
  have hopen : row.pendingCompletion = none := by
    obtain ⟨r, hr, -, -, hopen⟩ := hway
    rwa [Option.some.inj (hrow.symm.trans hr)]
  refine Finishes.bind (Finishes.bind (finishes_acquire (held_eq_false (by simp [hlocks])) ?_))
  refine Finishes.ensuring (Finishes.bind (finishes_getQueueItem ?_))
  simp only [Database.selectQueueItem, hrow, Option.map_some, hunknown, Bool.false_eq_true,
    if_false, rowToQueueItem_pendingCompletion, hopen]
  refine Finishes.bind ((finishes_admitActiveTrigger rfl (by exact hway)).mono ?_)
  rintro _ s' log' w' ⟨rfl, rfl, hheld, hway'⟩
  refine Finishes.ret (finishes_release (Finishes.ret ⟨rfl, rfl, ?_, hway'⟩))
  simp [hheld, hlocks]

/-- Freezing the outcome ends the lifecycle. -/
theorem reaches_complete {request : CompletionRequest} {mrIid : ℕ}
    {gitlab : (call : GitLabCall) → call.Answer} (hw : Ready settings mrIid id w)
    (hguard : ∀ i ∈ request.queueId, i = id) :
    (QueueCompletion.complete settings mrIid request).Reaches (answering settings gitlab) s w
      fun w' ↦ ¬ UnderWay settings.gitlabProjectId mrIid id w'.db := by
  obtain ⟨hlocks, r, hr, rfl, hactive, hopen⟩ := hw
  refine reaches_bind (finishes_acquire (held_eq_false (by simp [hlocks])) ⟨(), rfl, ?_⟩)
  refine Reaches.ensuring_left (Reaches.left ?_)
  refine reaches_bind (finishes_acquire (held_eq_false (by simp [hlocks])) ⟨(), rfl, ?_⟩)
  refine Reaches.ensuring_left ?_
  obtain ⟨item, payload, db', hprepare, -, -, held, hheld, hsome⟩ :=
    prepareCompletion_holds 0 hr hopen hguard
  refine reaches_transact ⟨0, some item, db', hprepare, ?_⟩
  rintro ⟨r', hr', -, -, hopen'⟩
  cases hr'.symm.trans hheld
  rw [hopen'] at hsome
  cases hsome

theorem transition_markRemoved_of_active {status : Status} (h : status.active = true) :
    MRStateMachine.transition .markRemoved status = some .removed := by
  cases status <;> first | rfl | cases h

theorem reaches_markRemoved {item : QueueItem} {reason : RemovalReason}
    {gitlab : (call : GitLabCall) → call.Answer}
    (hreason : reason = .labelRemoved ∨ reason = .closed)
    (hw : Ready settings event.iid id w) :
    (markRemoved settings event item reason).Reaches (answering settings gitlab) s w
      fun w' ↦ ¬ UnderWay settings.gitlabProjectId event.iid id w'.db := by
  obtain ⟨current, hitem, hid, hactive, -⟩ := hw.2.selectQueueItem
  refine reaches_bind (finishes_create hitem ⟨(), rfl, Reaches.handle_left ?_⟩)
  refine reaches_bind (finishes_machine rfl ⟨_, rfl, ?_⟩)
  refine reaches_bind (Finishes.update ⟨(), rfl, ?_⟩)
  refine reaches_bind (finishes_machine rfl ⟨_, rfl, ?_⟩)
  simp only [transition_markRemoved_of_active hactive]
  refine reaches_bind (Finishes.update ⟨(), rfl, ?_⟩)
  rw [MRStateMachine.onEnter, if_neg Bool.false_ne_true]
  refine reaches_bind (finishes_now fun removedAt ↦ ⟨removedAt, rfl, ?_⟩)
  rcases hreason with rfl | rfl
  · refine reaches_bind (Finishes.bind (finishes_db fun _ _ ↦ Finishes.ret ⟨_, rfl, ?_⟩))
    refine reaches_bind (finishes_capture (K := fun _ ↦ True) (fun _ _ _ _ ↦ trivial) trivial
      fun out _ _ ↦ ⟨out, rfl, reaches_complete hw ?_⟩)
    rintro _ ⟨⟩
    exact hid
  · refine reaches_bind (finishes_capture (K := fun _ ↦ True) (fun _ _ _ _ ↦ trivial) trivial
      fun out _ _ ↦ ⟨out, rfl, reaches_complete hw ?_⟩)
    rintro _ ⟨⟩
    exact hid

theorem reaches_handle_of_removal {gitlab : (call : GitLabCall) → call.Answer}
    (haction : event.action = .unlabeled ∨ event.action = .update ∨ event.action = .close)
    (hrow : w.db.row settings.gitlabProjectId event.iid = some row)
    (hw : Ready settings event.iid row.id w)
    (hunknown : ignoredCompletionEvent settings event (rowToQueueItem row) = false)
    (hasks : asksRemoval settings event = true) :
    (handle settings event).Reaches (answering settings gitlab) s w
      fun w' ↦ ¬ UnderWay settings.gitlabProjectId event.iid row.id w'.db := by
  rw [handle_of_removal haction]
  refine reaches_bind ((finishes_resumeCompletion_underWay hrow hw hunknown).mono ?_)
  rintro _ s' log' w' ⟨rfl, rfl, hw'⟩
  refine ⟨false, rfl, ?_⟩
  simp only [Bool.false_eq_true, if_false]
  obtain ⟨item, hitem, -⟩ := hw'.2.selectQueueItem
  have hunlabeled : shouldRemove settings event = true →
      (handleUnlabeled settings event).Reaches (answering settings gitlab) s' w' fun w' ↦
        ¬ UnderWay settings.gitlabProjectId event.iid row.id w'.db := by
    intro hremove
    refine reaches_bind (finishes_getQueueItem ⟨_, rfl, ?_⟩)
    simp only [hremove, if_true, hitem]
    exact Reaches.left (reaches_markRemoved (Or.inl rfl) hw')
  rcases haction with haction | haction | haction
  · simp only [dispatch, haction]
    exact hunlabeled (by simpa only [asksRemoval, haction] using hasks)
  · have hlost : hasQueueTrigger settings event.labels = false ∧
        (wasQueueLabelRemoved settings event || wasHotfixLabelRemoved settings event) = true := by
      simpa only [asksRemoval, haction, Bool.and_eq_true, Bool.not_eq_true'] using hasks
    simp only [dispatch, haction, handleUpdate, hlost, and_self, if_true]
    exact hunlabeled (shouldRemove_of_asksRemoval haction hasks)
  · simp only [dispatch, haction, handleClose]
    refine reaches_bind (finishes_getQueueItem ⟨_, rfl, ?_⟩)
    simp only [hitem]
    exact Reaches.left (reaches_markRemoved (Or.inr rfl) hw')

end Removed

end MRWebhookHandler

/-! ## Every history of lifecycles -/

section Histories

variable (settings : Settings) (event : MergeRequestEvent) (row : MergeRequestRow)

/-- The handler may end the lifecycle of the row: complete it, remove it or freeze its
outcome. -/
def EndsLifecycle (db : Database) : Prop :=
  (MRWebhookHandler.handle settings event).Reaches (undisturbed settings) {} { db } fun w ↦
    ¬ UnderWay settings.gitlabProjectId event.iid row.id w.db

/-- The row remembers the event, or the event asks for no removal. -/
def Spares : Prop :=
  MRWebhookHandler.ignoredCompletionEvent settings event (rowToQueueItem row) = true ∨
    MRWebhookHandler.asksRemoval settings event = false

variable {settings event row}

theorem not_endsLifecycle_iff {db : Database}
    (haction : event.action = .unlabeled ∨ event.action = .update ∨ event.action = .close)
    (hrow : db.row settings.gitlabProjectId event.iid = some row)
    (hactive : row.status.active = true) (hopen : row.pendingCompletion = none) :
    ¬ EndsLifecycle settings event row db ↔ Spares settings event row := by
  have hstart : UnderWay settings.gitlabProjectId event.iid row.id db :=
    ⟨row, hrow, rfl, hactive, hopen⟩
  constructor
  · intro hends
    by_contra hspared
    simp only [Spares, not_or, Bool.not_eq_false, Bool.not_eq_true] at hspared
    let gitlab := answersFor (MRWebhookHandler.requested settings event.iid)
    have hreaches : (MRWebhookHandler.handle settings event).Reaches (answering settings gitlab)
        {} { db } fun w ↦ ¬ UnderWay settings.gitlabProjectId event.iid row.id w.db :=
      MRWebhookHandler.reaches_handle_of_removal haction hrow ⟨rfl, hstart⟩ hspared.1 hspared.2
    exact hends (reaches_of_answering hreaches)
  · intro hspares
    have hwithin : (MRWebhookHandler.handle settings event).Within settings
        (UnderWay settings.gitlabProjectId event.iid row.id) {} db fun _ _ _ ↦ True := by
      rw [MRWebhookHandler.handle_of_removal haction]
      refine Prog.Within.bind (R := fun handled _ _ ↦ handled =
        MRWebhookHandler.ignoredCompletionEvent settings event (rowToQueueItem row)) ?_ ?_
      · refine (MRWebhookHandler.within_admitEvent_underWay hrow hstart).bind ?_
        rintro _ s db hdb rfl
        exact Prog.Within.ret hdb rfl
      · rintro handled s db hdb rfl
        split_ifs with hignored
        · exact Prog.Within.ret hdb trivial
        · exact MRWebhookHandler.within_dispatch_of_not_asksRemoval haction hdb
            (hspares.resolve_left hignored)
    exact Interleave.Task.Stays.not_reaches (hwithin _ rfl) fun w hkeep hends ↦ hends hkeep

end Histories

/-- Whatever the history, a late removal spares the lifecycle exactly where the row
remembers the event or the event asks for no removal. -/
theorem late_removal_spares_iff (settings : Settings) {event : MergeRequestEvent}
    (haction : event.action = .unlabeled ∨ event.action = .update ∨ event.action = .close)
    {db : Database} {row : MergeRequestRow}
    (hrow : db.row settings.gitlabProjectId event.iid = some row)
    (hactive : row.status.active = true) (hopen : row.pendingCompletion = none) :
    (event.before row.queuedAt = true → ¬ EndsLifecycle settings event row db) ↔
      (event.before row.queuedAt = true → Spares settings event row) :=
  imp_congr_right fun _ ↦ not_endsLifecycle_iff haction hrow hactive hopen

/-! ### A merge request that fails and is queued again -/

def queuedAgain : List Call :=
  attemptCalls .failed 0 ++
    [{ qm := {}, now := 2000000, tokens := id, op := .addToQueue 1 sampleMergeRequest false }]

def lateRemoval (previous current : List String) : MergeRequestEvent where
  iid := 7
  title := "Fix the build"
  state := .opened
  action := .unlabeled
  targetBranch := "master"
  userId := 3
  labels := current
  labelChanges := some { previous, current }
  updatedAt := some 1500000
  messageId := some "webhook"

/-- A row is queued after the late removal, and remembers no event. -/
theorem queuedAgain_row (previous current : List String) :
    ∃ row, (run queuedAgain .empty).db.row 1 7 = some row ∧ row.status.active = true ∧
      row.pendingCompletion = none ∧
      (lateRemoval previous current).before row.queuedAt = true ∧
      row.ignoredLabelEvents = [] := by
  have hrow : ((run queuedAgain .empty).db.row 1 7).any (fun row ↦
      row.status.active && row.pendingCompletion.isNone && decide (row.queuedAt = 2000000) &&
        row.ignoredLabelEvents.isEmpty) = true := by
    decide +kernel
  obtain ⟨row, hrow, h⟩ := (Option.any_eq_true _ _).mp hrow
  simp only [Bool.and_eq_true, decide_eq_true_eq, Option.isNone_iff_eq_none,
    List.isEmpty_iff] at h
  obtain ⟨⟨⟨hactive, hopen⟩, hqueued⟩, hignored⟩ := h
  refine ⟨row, hrow, hactive, hopen, ?_, hignored⟩
  rw [hqueued]
  rfl

/-- The row that the end of the first lifecycle left behind, for the label that somebody set
again after the bot had removed it. -/
def requeuedCalls : List Call :=
  let call (now : ℤ) (op : QueueOp) : Call := { qm := {}, now, tokens := id, op }
  let removed := { relabelledPayload with
    commentSent := true, labelsRemoved := true, labelEvents := [.at 5500000] }
  relabelledCalls ++ [call 7000000 (.saveCompletionProgress 1 1 removed),
    call 8000000 (.finalizeCompletion 1 relabelledItem removed)]

/-- The webhook of the bot's own removal. -/
def ownRemoval : MergeRequestEvent :=
  { lateRemoval ["merge_queue"] [] with updatedAt := some 5500000 }

theorem requeuedCalls_row :
    ∃ row, (run requeuedCalls .empty).db.row 1 7 = some row ∧ row.status.active = true ∧
      row.pendingCompletion = none ∧ ownRemoval.before row.queuedAt = true ∧
      MRWebhookHandler.ignoredCompletionEvent lateSettings ownRemoval (rowToQueueItem row) =
        true := by
  have hrow : ((run requeuedCalls .empty).db.row 1 7).any (fun row ↦
      row.status.active && row.pendingCompletion.isNone && decide (row.queuedAt = 8000000) &&
        decide (row.ignoredLabelEvents = [.at 5500000])) = true := by
    decide +kernel
  obtain ⟨row, hrow, h⟩ := (Option.any_eq_true _ _).mp hrow
  simp only [Bool.and_eq_true, decide_eq_true_eq, Option.isNone_iff_eq_none] at h
  obtain ⟨⟨⟨hactive, hopen⟩, hqueued⟩, hignored⟩ := h
  refine ⟨row, hrow, hactive, hopen, ?_, ?_⟩
  · rw [hqueued]
    rfl
  · simp [MRWebhookHandler.ignoredCompletionEvent, rowToQueueItem, hignored, ownRemoval,
      lateRemoval]

/-- Spared are a row whose own label stays, and one that knows the removal as the bot's. -/
theorem late_removals_spare :
    (∃ row, (run queuedAgain .empty).db.row 1 7 = some row ∧
      (lateRemoval ["merge_queue", "wip"] ["merge_queue"]).before row.queuedAt = true ∧
      ¬ EndsLifecycle lateSettings (lateRemoval ["merge_queue", "wip"] ["merge_queue"]) row
        (run queuedAgain .empty).db) ∧
    ∃ row, (run requeuedCalls .empty).db.row 1 7 = some row ∧
      ownRemoval.before row.queuedAt = true ∧
      MRWebhookHandler.asksRemoval lateSettings ownRemoval = true ∧
      ¬ EndsLifecycle lateSettings ownRemoval row (run requeuedCalls .empty).db := by
  obtain ⟨row, hrow, hactive, hopen, hlate, -⟩ :=
    queuedAgain_row ["merge_queue", "wip"] ["merge_queue"]
  obtain ⟨row', hrow', hactive', hopen', hlate', hignored⟩ := requeuedCalls_row
  refine ⟨⟨row, hrow, hlate, ?_⟩, row', hrow', hlate', by decide, ?_⟩
  · exact (late_removal_spares_iff lateSettings (Or.inl rfl) hrow hactive hopen).mpr
      (fun _ ↦ Or.inr (by decide)) hlate
  · exact (late_removal_spares_iff lateSettings (Or.inl rfl) hrow' hactive' hopen').mpr
      (fun _ ↦ Or.inl hignored) hlate'

/-- The removal of the label of the first lifecycle ends the second. -/
theorem late_removal_ends_lifecycle :
    ∃ row, (run queuedAgain .empty).db.row 1 7 = some row ∧
      (lateRemoval ["merge_queue"] []).before row.queuedAt = true ∧
      EndsLifecycle lateSettings (lateRemoval ["merge_queue"] []) row
        (run queuedAgain .empty).db := by
  obtain ⟨row, hrow, hactive, hopen, hlate, hignored⟩ := queuedAgain_row ["merge_queue"] []
  refine ⟨row, hrow, hlate, ?_⟩
  by_contra hends
  rcases (not_endsLifecycle_iff (Or.inl rfl) hrow hactive hopen).mp hends with hknown | hasks
  · simp [MRWebhookHandler.ignoredCompletionEvent, rowToQueueItem, hignored] at hknown
  · revert hasks
    decide

end MergeQueue
