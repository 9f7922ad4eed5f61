import MergeQueue.CompletionSteps
import MergeQueue.HistoryLoss
import MergeQueue.WebhookHandler

/-!
# The receipts of an admission

Freezing an outcome splits what was admitted before it from what comes after.  A saved
request that took effect before the finish is dropped, and the keys of its events are
kept, first in the record of the completion and then on the row that replaces it.
-/

namespace MergeQueue

open Interleave (Program)
open QueueManager QueueOp

/-! ## The split -/

namespace Requeue

/-- The request was applied no later than `finish`. -/
def AppliedBy (saved : Requeue) (finish : ℤ) : Prop := ∃ applied ∈ saved.appliedAt, applied ≤ finish

/-- The source interval of the request ends no later than `finish`. -/
def SourceEndsBy (saved : Requeue) (finish : ℤ) : Prop :=
  ∃ source ∈ saved.clock.requestedAt, source + saved.clock.precisionUs ≤ finish

end Requeue

theorem mem_admissionReceipts {saved : Requeue} {key : String} :
    key ∈ admissionReceipts saved ↔
      key ∈ saved.admission.bind Admission.admissionKey ∨ key ∈ saved.seenMessages := by
  simp only [admissionReceipts, List.mem_eraseDups, List.mem_append, Option.mem_toList,
    Option.mem_def]

/-- A completion finished at `finish` made `row'` of `row` and froze `payload`: it carries
the saved request over, or it drops the request and keeps its receipts. -/
structure SplitsAdmission (row row' : MergeRequestRow) (payload : CompletionPayload) (finish : ℤ) :
    Prop where
  owned : row'.pendingCompletion = some payload
  carried_or_consumed :
    (row'.requeueRequest = row.requeueRequest ∧ payload.consumedAdmissions = []) ∨
      ∃ saved, row.requeueRequest = some saved ∧ row'.requeueRequest = none ∧
        ∀ key, key ∈ payload.consumedAdmissions ↔
          key ∈ saved.admission.bind Admission.admissionKey ∨ key ∈ saved.seenMessages
  cleared_iff : ∀ saved, row.requeueRequest = some saved →
    (row'.requeueRequest = none ↔ saved.AppliedBy finish ∨ saved.SourceEndsBy finish)
  receipts : payload.labelEvents = payload.consumedAdmissions.map .admission

/-- A saved request is dropped where it was applied, or its source ended, before the finish. -/
theorem completionAdmission_of_saved {item : QueueItem} {saved : Requeue}
    (h : item.requeueRequest = some saved) (finish : ℤ) :
    ((saved.AppliedBy finish ∨ saved.SourceEndsBy finish) ∧
        completionAdmission item finish = (none, admissionReceipts saved)) ∨
      (¬(saved.AppliedBy finish ∨ saved.SourceEndsBy finish) ∧
        completionAdmission item finish = (some saved, [])) := by
  have happlied : (saved.appliedAt.any fun applied ↦ decide (applied ≤ finish)) = true ↔
      saved.AppliedBy finish := by
    simp [Requeue.AppliedBy, Option.any_eq_true]
  have hsource : (saved.clock.requestedAt.any fun source ↦
      definitelyBefore source saved.clock.precisionUs finish) = true ↔
        saved.SourceEndsBy finish := by
    simp [Requeue.SourceEndsBy, Option.any_eq_true, definitelyBefore]
  simp only [completionAdmission, h]
  by_cases hprior : saved.AppliedBy finish ∨ saved.SourceEndsBy finish
  · refine Or.inl ⟨hprior, if_neg ?_⟩
    rw [Bool.and_eq_true, Bool.not_eq_true', Bool.not_eq_true', ← Bool.not_eq_true,
      ← Bool.not_eq_true, happlied, hsource]
    tauto
  · refine Or.inr ⟨hprior, if_pos ?_⟩
    rw [Bool.and_eq_true, Bool.not_eq_true', Bool.not_eq_true', ← Bool.not_eq_true,
      ← Bool.not_eq_true, happlied, hsource]
    tauto

theorem splitsAdmission_preparedRow (row : MergeRequestRow) (request : CompletionRequest)
    (now : ℤ) :
    SplitsAdmission row (preparedRow request now row)
      (completionPayload (rowToQueueItem row) request now)
      (finishedTime request.context now) := by
  cases hsaved : row.requeueRequest with
  | none =>
      have hadmission : completionAdmission (rowToQueueItem row) (finishedTime request.context now)
          = (none, []) := by
        simp [completionAdmission, hsaved]
      refine ⟨rfl, Or.inl ⟨?_, ?_⟩, ?_, rfl⟩
      · simp [preparedRow, hadmission, hsaved]
      · simp [completionPayload, hadmission]
      · rintro saved h
        cases hsaved.symm.trans h
  | some saved =>
      have hitem : (rowToQueueItem row).requeueRequest = some saved := hsaved
      have hsplit := completionAdmission_of_saved hitem (finishedTime request.context now)
      rcases hsplit with ⟨hprior, hadmission⟩ | ⟨hprior, hadmission⟩
      · refine ⟨rfl, Or.inr ⟨saved, hsaved, ?_, fun key ↦ ?_⟩, ?_, rfl⟩
        · simp [preparedRow, hadmission]
        · simp [completionPayload, hadmission, mem_admissionReceipts]
        · rintro other hother
          cases hsaved.symm.trans hother
          simp [preparedRow, hadmission, hprior]
      · refine ⟨rfl, Or.inl ⟨?_, ?_⟩, ?_, rfl⟩
        · simp [preparedRow, hadmission, hsaved]
        · simp [completionPayload, hadmission]
        · rintro other hother
          cases hsaved.symm.trans hother
          simp [preparedRow, hadmission, hprior]

/-! ## Recognition -/

/-- The queue answers the read of a merge request with its row. -/
def showsRow (row : MergeRequestRow) : (op : Op) → Except PyError op.Answer → Prop
  | .db (.getQueueItem projectId mrIid), .ok item =>
      (projectId, mrIid) = (row.projectId, row.iid) → item = some (rowToQueueItem row)
  | _, _ => True

/-- The operation takes or gives a lock, or reads a row. -/
def Op.watches : Op → Prop
  | .acquire _ | .release _ | .db (.getQueueItem ..) => True
  | _ => False

/-- A delivery of the event that finds the row changes nothing. -/
def Recognised (settings : Settings) (event : MergeRequestEvent) (row : MergeRequestRow) : Prop :=
  (MRWebhookHandler.handle settings event).Asks (showsRow row) (fun _ op ↦ op.watches)
    (fun _ ↦ True) (fun _ _ ↦ True) fun _ _ ↦ True

/-- The row knows the key of the event, from its own admissions or from the frozen ones. -/
def Receipted (key : String) (row : MergeRequestRow) : Prop :=
  .admission key ∈ row.ignoredLabelEvents ∨
    ∃ payload ∈ row.pendingCompletion, key ∈ payload.consumedAdmissions

section Recognition

variable {settings : Settings} {event : MergeRequestEvent} {row : MergeRequestRow}

open Interleave.Program (Asks)

theorem asks_withLock {α : Type} {contract : (op : Op) → Except PyError op.Answer → Prop}
    {permits : Local → Op → Prop} {post : α → Local → Prop} {lock : LockName} {body : Prog α}
    (hacquire : ∀ s, permits s (.acquire lock)) (hrelease : ∀ s, permits s (.release lock))
    (hbody : body.Asks contract permits (fun _ ↦ True) post fun _ _ ↦ True) :
    (Prog.withLock lock body).Asks contract permits (fun _ ↦ True) post fun _ _ ↦ True := by
  have hunlocked : (body.ensuring (Prog.await (.release lock))).Asks contract permits
      (fun _ ↦ True) post fun _ _ ↦ True := by
    refine Asks.ensuring hbody (fun a ↦ ?_) fun e ↦ ?_
    · exact Asks.call (fun s _ ↦ hrelease s) (fun _ _ h _ ↦ h) fun _ _ _ ↦ trivial
    · exact Asks.call (fun s _ ↦ hrelease s) (fun _ _ h _ ↦ h) fun _ _ _ ↦ trivial
  exact Asks.bind (Asks.call (fun s _ ↦ hacquire s) (fun _ _ _ _ ↦ trivial)
    fun _ _ _ ↦ trivial) fun _ ↦ hunlocked

theorem asks_admitEvent
    (hkey : (settings.gitlabProjectId, event.iid) = (row.projectId, row.iid))
    (hknown : Receipted (MRWebhookHandler.admissionKey event) row) :
    (MRWebhookHandler.admitEvent settings event).Asks (showsRow row) (fun _ op ↦ op.watches)
      (fun _ ↦ True) (fun result _ ↦ result = .inl true) fun _ _ ↦ True := by
  refine asks_withLock (fun _ ↦ trivial) (fun _ ↦ trivial) ?_
  refine Asks.bind (Asks.call (fun _ _ ↦ trivial) (fun item _ _ h ↦ h hkey) fun _ _ _ ↦ trivial)
    fun item ↦ ?_
  rintro s rfl
  simp only
  split_ifs with hignored
  · rfl
  · rcases hknown with hrow | ⟨payload, hpending, hconsumed⟩
    · have hitem : .admission (MRWebhookHandler.admissionKey event) ∈
          (rowToQueueItem row).ignoredLabelEvents := hrow
      exact absurd (by simp [MRWebhookHandler.ignoredCompletionEvent, hitem]) hignored
    · have hcontains : payload.consumedAdmissions.contains
          (MRWebhookHandler.admissionKey event) = true := by simpa using hconsumed
      have hpending' : (rowToQueueItem row).pendingCompletion = some payload := hpending
      simp only [hpending', MRWebhookHandler.admitToCompletion, hcontains, if_true]
      rfl

theorem recognised_of_receipted
    (hkey : (settings.gitlabProjectId, event.iid) = (row.projectId, row.iid))
    (hknown : Receipted (MRWebhookHandler.admissionKey event) row) :
    Recognised settings event row := by
  have hresume : (MRWebhookHandler.resumeCompletion settings event).Asks (showsRow row)
      (fun _ op ↦ op.watches) (fun _ ↦ True) (fun handled _ ↦ handled = true) fun _ _ ↦ True := by
    refine Asks.bind (asks_admitEvent hkey hknown) fun result ↦ ?_
    rintro s rfl
    rfl
  have hhandled : Asks (showsRow row) (fun _ op ↦ op.watches) (fun _ ↦ True) (do
      let handled ← MRWebhookHandler.resumeCompletion settings event
      if handled then pure () else MRWebhookHandler.dispatch settings event)
      (fun _ _ ↦ True) fun _ _ ↦ True := by
    refine Asks.bind hresume fun handled ↦ ?_
    rintro s rfl
    trivial
  unfold Recognised MRWebhookHandler.handle
  split
  · exact fun _ _ ↦ trivial
  · exact hhandled

end Recognition

/-! ## Records that only grow -/

/-- `payload` continues `saved` and keeps its label events. -/
def CompletionPayload.grows (payload saved : CompletionPayload) : Bool :=
  payload.continues saved && saved.labelEvents.isPrefixOf payload.labelEvents

theorem CompletionPayload.grows_iff {payload saved : CompletionPayload} :
    payload.grows saved = true ↔
      payload.continues saved = true ∧ saved.labelEvents <+: payload.labelEvents := by
  rw [grows, Bool.and_eq_true, List.isPrefixOf_iff_prefix]

/-- A record of the row that is saved grows from `frozen`. -/
def Op.Growing (item : QueueItem) (frozen : CompletionPayload) : Op → Prop
  | .db (.saveCompletionProgress _ queueId payload) =>
      queueId = item.queueId ∧ payload.grows frozen = true
  | _ => True

theorem progressive_grows (frozen : CompletionPayload) :
    CompletionPayload.Progressive fun payload ↦ payload.grows frozen = true where
  commentSent h := h
  labelsRemoved h := h
  operations _ h := h
  events events h := by
    obtain ⟨hcontinues, hprefix⟩ := CompletionPayload.grows_iff.mp h
    exact CompletionPayload.grows_iff.mpr
      ⟨hcontinues, hprefix.trans (List.prefix_append _ events)⟩

/-- What finishes a lifecycle saves only records that grow from the one it was given. -/
theorem leaves_finish_growing {settings : Settings} {item : QueueItem}
    {frozen : CompletionPayload} (hfrozen : item.pendingCompletion = some frozen) :
    (QueueCompletion.finish settings item).Leaves (Op.Growing item frozen) := by
  refine QueueCompletion.leaves_finish_of (progressive_grows frozen) ?_ hfrozen
    (CompletionPayload.grows_iff.mpr ⟨frozen.continues_self, List.prefix_rfl⟩)
  refine ⟨fun {op} hop ↦ ?_, fun _ ↦ trivial, fun h ↦ ⟨rfl, h⟩, fun _ _ ↦ trivial⟩
  unfold Op.Growing
  split
  · cases hop
  · trivial

namespace Call

/-- Who saves a record was given one that it grows from. -/
def growing (call : Call) (w : QueueWorld) : Bool :=
  match call.op with
  | .saveCompletionProgress _ queueId payload =>
      w.items.any fun item ↦
        item.queueId = queueId && item.pendingCompletion.any payload.grows
  | _ => true

end Call

/-- A run whose callers make only the calls they may make, and whose records only grow. -/
def Growing : List Call → QueueWorld → Prop
  | [], _ => True
  | call :: calls, w =>
      call.permitted w = true ∧ call.growing w = true ∧ Growing calls (call.apply w)

instance : (calls : List Call) → (w : QueueWorld) → Decidable (Growing calls w)
  | [], _ => .isTrue trivial
  | call :: calls, w =>
      have : Decidable (Growing calls (call.apply w)) := instDecidableGrowing calls _
      inferInstanceAs (Decidable (_ ∧ _ ∧ _))

theorem Growing.append {calls calls' : List Call} {w : QueueWorld}
    (h : Growing (calls ++ calls') w) : Growing calls w ∧ Growing calls' (run calls w) := by
  induction calls generalizing w with
  | nil => exact ⟨trivial, h⟩
  | cons call calls ih =>
      obtain ⟨hleft, hright⟩ := ih h.2.2
      exact ⟨⟨h.1, h.2.1, hleft⟩, hright⟩

theorem Growing.permitted {calls : List Call} {w : QueueWorld} (h : Growing calls w) :
    Permitted calls w := by
  induction calls generalizing w with
  | nil => trivial
  | cons call calls ih => exact ⟨h.1, ih h.2.2⟩

/-! ## The completing row -/

/-- The record tells that the key was consumed, in both of its lists. -/
structure CompletionPayload.Holds (key : String) (payload : CompletionPayload) : Prop where
  consumed : key ∈ payload.consumedAdmissions
  event : .admission key ∈ payload.labelEvents

theorem CompletionPayload.Holds.of_grows {key : String} {payload saved : CompletionPayload}
    (h : saved.Holds key) (hgrows : payload.grows saved = true) : payload.Holds key := by
  obtain ⟨hcontinues, hprefix⟩ := CompletionPayload.grows_iff.mp hgrows
  simp only [CompletionPayload.continues, Bool.and_eq_true, decide_eq_true_eq] at hcontinues
  exact ⟨hcontinues.2 ▸ h.consumed, hprefix.subset h.event⟩

/-- The row `id` completes, and its record tells of the key wherever it is. -/
structure Consuming (key : String) (id : ℕ) (w : QueueWorld) : Prop where
  below : id < w.db.mergeRequests.nextId
  owned : ∀ r ∈ w.db.mergeRequests.rows, r.id = id → ∃ payload ∈ r.pendingCompletion,
    payload.Holds key
  shown : ∀ item ∈ w.items, item.queueId = id → ∀ payload ∈ item.pendingCompletion,
    payload.Holds key

theorem Consuming.apply {key : String} {id : ℕ} {w : QueueWorld} {call : Call}
    (h : Consuming key id w) (hgrowing : call.growing w = true) :
    Consuming key id (call.apply w) := by
  rw [Call.apply]
  cases hexec : call.op.exec call.qm call.now call.tokens w.db with
  | error e => exact h
  | ok result =>
      obtain ⟨answer, db'⟩ := result
      have hevolves := exec_evolves hexec
      have howned : ∀ r' ∈ db'.mergeRequests.rows, r'.id = id →
          ∃ payload ∈ r'.pendingCompletion, payload.Holds key := by
        intro r' hr' hid'
        obtain ⟨r, hr, hid, -, hchange⟩ := hevolves.of_rowId_lt hr'
          (by simpa [hid'] using h.below)
        simp only [rowId_mergeRequestRow] at hid
        obtain ⟨payload, hpayload, hholds⟩ := h.owned r hr (hid ▸ hid')
        rcases QueueOp.pendingCompletion_of_rowChange hchange with
          heq | ⟨projectId, saved, hop, -, heq⟩ | ⟨projectId, mrIid, request, -, hnone, -⟩
        · exact ⟨payload, heq ▸ hpayload, hholds⟩
        · simp only [Call.growing, hop, List.any_eq_true, Bool.and_eq_true,
            decide_eq_true_eq] at hgrowing
          obtain ⟨item, hitem, hqueueId, hgrows⟩ := hgrowing
          obtain ⟨old, hold, hgrows⟩ := (Option.any_eq_true _ _).mp hgrows
          have hshown := h.shown item hitem (hqueueId.trans (hid ▸ hid')) old hold
          exact ⟨saved, heq, hshown.of_grows hgrows⟩
        · rw [hnone] at hpayload
          cases hpayload
      refine ⟨h.below.trans_le hevolves.nextId_le, howned, fun item hitem hid payload hpayload ↦ ?_⟩
      rcases List.mem_append.mp hitem with hold | hnew
      · exact h.shown item hold hid payload hpayload
      · obtain ⟨r, hr, hshows⟩ := exec_items hexec hnew
        obtain ⟨other, hother, hholds⟩ := howned r hr (hshows.queueId ▸ hid)
        rw [hshows.pendingCompletion, hother] at hpayload
        cases hpayload
        exact hholds

theorem Consuming.run {key : String} {id : ℕ} {calls : List Call} {w : QueueWorld}
    (h : Consuming key id w) (hgrowing : Growing calls w) :
    Consuming key id (run calls w) := by
  induction calls generalizing w with
  | nil => exact h
  | cons call calls ih => exact ih (h.apply hgrowing.2.1) hgrowing.2.2

/-! ## The row that replaces it -/

/-- Only the final transaction changes which events a row ignores. -/
theorem ignoredLabelEvents_of_rowChange {now : ℤ} {op : QueueOp} {r r' : MergeRequestRow}
    (h : op.RowChange now r r') :
    r'.ignoredLabelEvents = r.ignoredLabelEvents ∨
      ∃ projectId item payload, op = .finalizeCompletion projectId item payload := by
  cases op with
  | finalizeCompletion projectId item payload => exact Or.inr ⟨projectId, item, payload, rfl⟩
  | removeFromQueue | markStaleWarningSent =>
      rcases h with rfl | ⟨-, -, rfl⟩ <;> exact Or.inl rfl
  | updateMrState =>
      rcases h with rfl | ⟨-, -, -, rfl⟩ <;> exact Or.inl rfl
  | clearPendingNotification | stageCompletionPositions =>
      obtain ⟨note, rfl⟩ := h
      exact Or.inl rfl
  | updateHotfixStatus | activatePriorities =>
      obtain ⟨_, _, _, _, _, _, rfl, -⟩ := h
      exact Or.inl rfl
  | deferRequeue | cancelRequeue =>
      rcases h with rfl | ⟨-, _, _, -, rfl⟩ <;> exact Or.inl rfl
  | refreshRequeueLabels =>
      rcases h with rfl | ⟨-, _, _, -, -, rfl⟩ <;> exact Or.inl rfl
  | prepareCompletion =>
      rcases h with rfl | ⟨-, -, -, -, rfl⟩ <;> exact Or.inl rfl
  | saveCompletionProgress =>
      rcases h with rfl | ⟨-, -, -, rfl⟩ <;> exact Or.inl rfl
  | addToQueue | getQueueItem | getActiveQueue | getPendingCompletions | getStaleMrs | getMrState
  | completeMr | cleanupOldEntries =>
      cases h
      exact Or.inl rfl

section Replacement

variable {w : QueueWorld} {qm : QueueManager} {projectId : ℕ} {item : QueueItem}
  {payload : CompletionPayload} {now : ℤ} {tokens : ℕ → Uuid} {done : Bool} {db' : Database}

/-- The transferred row remembers the events of the record, and the other rows keep theirs. -/
theorem ignored_transferRequeue (hsound : w.Sound) (hitem : item ∈ w.items)
    {row : MergeRequestRow} (hrow : row ∈ w.db.mergeRequests.rows)
    (hproject : row.projectId = projectId) (hid : row.id = item.queueId)
    (hpending : row.pendingCompletion = some payload)
    (hrequeue : row.requeueRequest = item.requeueRequest) {requeue : Requeue}
    (hsaved : item.requeueRequest = some requeue) {token : Uuid} {db₁ : Database}
    (h : qm.transferRequeue projectId item.mrIid payload requeue now token
      (archived projectId item payload w.db) = .ok db₁)
    {r' : MergeRequestRow} (hr' : r' ∈ db₁.mergeRequests.rows) :
    r' ∈ w.db.mergeRequests.rows ∨
      (r'.id = w.db.mergeRequests.nextId ∧ payload.labelEvents ⊆ r'.ignoredLabelEvents) := by
  obtain ⟨-, hiid⟩ := hsound.shown item hitem row hrow hid
  have hfree : (archived projectId item payload w.db).row projectId item.mrIid = none := by
    rw [← hproject, ← hiid]
    exact hproject ▸ row_archived hrow hproject hid hpending hrequeue
  obtain ⟨admission, isHotfix, isAutomated, hadmission, -, rfl⟩ := transferRequeue_eq_ok h
  have howner := hsound.requests row hrow requeue (hrequeue ▸ hsaved) admission hadmission
  rw [KeyedTable.mem_updateWhere] at hr'
  obtain ⟨r, hr, rfl⟩ := hr'
  rcases of_mem_insertMr hr with hold | hnew
  · have hkey := KeyedTable.byKey_eq_none_iff.mp hfree r hold
    simp only [key_mergeRequestRow, ne_eq, Prod.mk.injEq] at hkey
    rw [if_neg (by simpa using hkey)]
    exact Or.inl (KeyedTable.mem_deleteWhere.mp hold).1
  · have hhit : (decide (r.projectId = projectId) && decide (r.iid = item.mrIid)) = true := by
      simp [hnew, insertedRow, howner.1.trans hproject, howner.2.trans hiid]
    rw [if_pos hhit]
    exact Or.inr ⟨congrArg MergeRequestRow.id hnew, List.subset_append_left _ _⟩

theorem ignored_finalizeCompletion (hsound : w.Sound) (hitem : item ∈ w.items)
    (h : qm.finalizeCompletion projectId item payload now tokens w.db = .ok (done, db'))
    {r' : MergeRequestRow} (hr' : r' ∈ db'.mergeRequests.rows) :
    (∃ r ∈ w.db.mergeRequests.rows, r'.id = r.id ∧
        r'.ignoredLabelEvents = r.ignoredLabelEvents) ∨
      ((∃ r ∈ w.db.mergeRequests.rows, r.id = item.queueId ∧
          r.pendingCompletion = some payload) ∧
        r'.id = w.db.mergeRequests.nextId ∧ payload.labelEvents ⊆ r'.ignoredLabelEvents) := by
  rcases finalizeCompletion_eq_ok h with
    ⟨-, rfl⟩ | ⟨-, ⟨row, hrow, hproject, hid, hpending, hrequeue⟩, db₁, hdb₁, rfl⟩
  · exact Or.inl ⟨r', hr', rfl, rfl⟩
  · obtain ⟨f, hf, hrows, -⟩ := stageFeedback_rows
      (completionFeedback payload.request.positions payload.request.oldTotal
        (selectActiveQueue db₁ projectId).length tokens)
      ((selectActiveQueue db₁ projectId).zipIdx 1) db₁.mergeRequests
    obtain ⟨r₁, hr₁, rfl⟩ := List.mem_map.mp (hrows ▸ hr')
    obtain ⟨note, hnote⟩ := hf r₁
    rw [hnote]
    have hsource : r₁ ∈ w.db.mergeRequests.rows ∨
        (r₁.id = w.db.mergeRequests.nextId ∧ payload.labelEvents ⊆ r₁.ignoredLabelEvents) := by
      rcases hdb₁ with ⟨-, rfl⟩ | ⟨requeue, hsaved, -, htransfer⟩
      · exact Or.inl (KeyedTable.mem_deleteWhere.mp hr₁).1
      · exact ignored_transferRequeue hsound hitem hrow hproject hid hpending hrequeue hsaved
          htransfer hr₁
    rcases hsource with hold | ⟨hnew, hevents⟩
    · exact Or.inl ⟨r₁, hold, rfl, rfl⟩
    · exact Or.inr ⟨⟨row, hrow, hid, hpending⟩, hnew, hevents⟩

end Replacement

/-- The row `id` remembers the key wherever it is. -/
structure Remembering (key : String) (id : ℕ) (w : QueueWorld) : Prop where
  below : id < w.db.mergeRequests.nextId
  rows : ∀ r ∈ w.db.mergeRequests.rows, r.id = id → .admission key ∈ r.ignoredLabelEvents

theorem Remembering.apply {key : String} {id : ℕ} {w : QueueWorld} {call : Call}
    (h : Remembering key id w) (hsound : w.Sound) (hpermitted : call.permitted w = true) :
    Remembering key id (call.apply w) := by
  rw [Call.apply]
  cases hexec : call.op.exec call.qm call.now call.tokens w.db with
  | error e => exact h
  | ok result =>
      obtain ⟨answer, db'⟩ := result
      have hevolves := exec_evolves hexec
      refine ⟨h.below.trans_le hevolves.nextId_le, fun r' hr' hid' ↦ ?_⟩
      obtain ⟨r, hr, hid, -, hchange⟩ := hevolves.of_rowId_lt hr'
        (by simpa [hid'] using h.below)
      simp only [rowId_mergeRequestRow] at hid
      rcases ignoredLabelEvents_of_rowChange hchange with
        hsame | ⟨projectId, item, payload, hop⟩
      · rw [hsame]
        exact h.rows r hr (hid ▸ hid')
      · obtain ⟨qm, now, tokens, op⟩ := call
        subst hop
        have hitem : item ∈ w.items := by simpa [Call.permitted] using hpermitted
        rcases ignored_finalizeCompletion hsound hitem hexec hr' with
          ⟨s, hs, hids, hsame⟩ | ⟨-, hnew, -⟩
        · rw [hsame]
          exact h.rows s hs (hids ▸ hid')
        · have hbelow := h.below
          omega

theorem Remembering.run {key : String} {id : ℕ} {calls : List Call} {w : QueueWorld}
    (h : Remembering key id w) (hsound : w.Sound) (hpermitted : Permitted calls w) :
    Remembering key id (run calls w) := by
  induction calls generalizing w with
  | nil => exact h
  | cons call calls ih =>
      exact ih (h.apply hsound hpermitted.1) (hsound.apply hpermitted.1) hpermitted.2

/-! ## From the frozen outcome on -/

/-- The call freezes the outcome of the open row `row`. -/
def Call.Freezes (call : Call) (w : QueueWorld) (projectId mrIid : ℕ) (row : MergeRequestRow) :
    Prop :=
  ∃ request, call.op = .prepareCompletion projectId mrIid request ∧
    w.db.row projectId mrIid = some row ∧ row.pendingCompletion = none ∧
    ∀ id ∈ request.queueId, id = row.id

section Freezing

variable {w : QueueWorld} {call : Call} {projectId mrIid : ℕ} {row row' : MergeRequestRow}
  {payload : CompletionPayload} {key : String}

/-- Before its outcome is frozen, nobody was given a record of an open row. -/
theorem Tracked.pendingCompletion_eq_none (h : Tracked w) (hrow : row ∈ w.db.mergeRequests.rows)
    (hopen : row.pendingCompletion = none) {item : QueueItem} (hitem : item ∈ w.items)
    (hid : item.queueId = row.id) : item.pendingCompletion = none := by
  by_contra hsome
  obtain ⟨old, hold⟩ := Option.ne_none_iff_exists'.mp hsome
  have hshown := h.shown item hitem old hold
  rw [hid, h.open_ row hrow hopen] at hshown
  cases hshown

theorem consuming_of_freezes (htracked : Tracked w)
    (hfreezes : call.Freezes w projectId mrIid row)
    (hrow' : (call.apply w).db.row projectId mrIid = some row')
    (hpayload : row'.pendingCompletion = some payload) (hkey : key ∈ payload.consumedAdmissions) :
    Consuming key row.id (call.apply w) := by
  obtain ⟨qm, now, tokens, op⟩ := call
  obtain ⟨request, rfl, hrow, hopen, hguard⟩ := hfreezes
  obtain ⟨db', hout, hnext, hrows⟩ := prepareCompletion_freezes now hrow hopen hguard
  have hmem := KeyedTable.mem_of_byKey hrow
  have hprepared := row_of_prepared hrow hrows
  have hdb : (Call.apply ⟨qm, now, tokens, .prepareCompletion projectId mrIid request⟩ w).db =
      db' := by
    simp only [Call.apply, QueueOp.exec, hout]
  rw [hdb, hprepared] at hrow'
  cases hrow'
  have hsplit := splitsAdmission_preparedRow row request now
  cases hsplit.owned.symm.trans hpayload
  have hholds : (completionPayload (rowToQueueItem row) request now).Holds key := by
    refine ⟨hkey, ?_⟩
    rw [hsplit.receipts]
    exact List.mem_map_of_mem hkey
  refine ⟨?_, fun r hr hid ↦ ?_, fun item hitem hid old hold ↦ ?_⟩
  · rw [hdb, hnext]
    exact w.db.mergeRequests.below row hmem
  · rw [hdb, hrows] at hr
    obtain ⟨s, hs, rfl⟩ := List.mem_map.mp hr
    by_cases hsame : s.id = row.id
    · rw [if_pos hsame]
      obtain rfl := w.db.mergeRequests.eq_of_rowId_eq hs hmem hsame
      exact ⟨_, rfl, hholds⟩
    · rw [if_neg hsame] at hid
      exact absurd hid hsame
  · simp only [Call.apply, QueueOp.exec, hout, QueueOp.items, Option.toList_some,
      List.mem_append, List.mem_singleton] at hitem
    rcases hitem with hitem | rfl
    · rw [htracked.pendingCompletion_eq_none hmem hopen hitem hid] at hold
      cases hold
    · cases hold
      exact hholds

theorem remembering_of_finalize (hsound : w.Sound) (hpermitted : call.permitted w = true)
    {id : ℕ} (hconsuming : Consuming key id w) {item : QueueItem}
    (hop : call.op = .finalizeCompletion projectId item payload) (hid : item.queueId = id)
    {new : MergeRequestRow} (hnew : new ∈ (call.apply w).db.mergeRequests.rows)
    (hfresh : w.db.mergeRequests.nextId ≤ new.id) :
    Remembering key new.id (call.apply w) := by
  refine ⟨(call.apply w).db.mergeRequests.below new hnew, fun r hr hsame ↦ ?_⟩
  obtain rfl := (call.apply w).db.mergeRequests.eq_of_rowId_eq hr hnew hsame
  obtain ⟨qm, now, tokens, op⟩ := call
  subst hop
  have hitem : item ∈ w.items := by simpa [Call.permitted] using hpermitted
  cases hexec : qm.finalizeCompletion projectId item payload now tokens w.db with
  | error e =>
      simp only [Call.apply, QueueOp.exec, hexec] at hnew
      have hbelow := w.db.mergeRequests.below r hnew
      simp only [rowId_mergeRequestRow] at hbelow
      omega
  | ok result =>
      obtain ⟨done, db'⟩ := result
      simp only [Call.apply, QueueOp.exec, hexec] at hnew
      rcases ignored_finalizeCompletion hsound hitem hexec hnew with
        ⟨s, hs, hids, -⟩ | ⟨⟨s, hs, hids, hpending⟩, -, hevents⟩
      · have hbelow := w.db.mergeRequests.below s hs
        simp only [rowId_mergeRequestRow] at hbelow
        omega
      · obtain ⟨saved, hsaved, hholds⟩ := hconsuming.owned s hs (hids.trans hid)
        cases hsaved.symm.trans hpending
        exact hevents hholds.event

theorem Tracked.run {calls : List Call} (h : Tracked w) (hpermitted : Permitted calls w) :
    Tracked (run calls w) := by
  induction calls generalizing w with
  | nil => exact h
  | cons call calls ih => exact ih (h.apply hpermitted.1) hpermitted.2

end Freezing

/-- Freezing an outcome carries the saved request over or consumes it with its receipts, as its
two clocks say; and from then on the completing row, and the row that a final transaction puts
in its place, recognise every event whose key was consumed. -/
theorem completion_splits_admission :
    (∀ db projectId mrIid row request now, db.row projectId mrIid = some row →
      row.pendingCompletion = none → (∀ id ∈ request.queueId, id = row.id) →
        ∃ item payload db' row',
          QueueManager.prepareCompletion projectId mrIid request now db = .ok (some item, db') ∧
          db'.row projectId mrIid = some row' ∧
          SplitsAdmission row row' payload (finishedTime request.context now)) ∧
    ∀ (settings : Settings) (event : MergeRequestEvent) (before after : List Call) (call : Call)
      (row row' : MergeRequestRow) (payload : CompletionPayload),
      Growing (before ++ call :: after) .empty →
      call.Freezes (run before .empty) settings.gitlabProjectId event.iid row →
      (call.apply (run before .empty)).db.row settings.gitlabProjectId event.iid = some row' →
      row'.pendingCompletion = some payload →
      MRWebhookHandler.admissionKey event ∈ payload.consumedAdmissions →
      (∀ r, (run after (call.apply (run before .empty))).db.row settings.gitlabProjectId
          event.iid = some r → r.id = row.id → Recognised settings event r) ∧
      ∀ middle finish rest projectId item saved, after = middle ++ finish :: rest →
        finish.op = .finalizeCompletion projectId item saved → item.queueId = row.id →
        ∀ new ∈ (finish.apply (run middle
            (call.apply (run before .empty)))).db.mergeRequests.rows,
          (run middle (call.apply (run before .empty))).db.mergeRequests.nextId ≤ new.id →
          ∀ r, (run after (call.apply (run before .empty))).db.row settings.gitlabProjectId
            event.iid = some r → r.id = new.id → Recognised settings event r := by
  refine ⟨fun db projectId mrIid row request now hrow hopen hguard ↦ ?_,
    fun settings event before after call row row' payload hgrowing hfreezes hrow' hpayload hkey ↦
      ?_⟩
  · obtain ⟨db', hout, -, hrows⟩ := prepareCompletion_freezes now hrow hopen hguard
    exact ⟨_, _, db', _, hout, row_of_prepared hrow hrows,
      splitsAdmission_preparedRow row request now⟩
  · obtain ⟨hbefore, hrest⟩ := hgrowing.append
    have hsound := QueueWorld.sound_empty.run hbefore.permitted
    have htracked := tracked_empty.run hbefore.permitted
    generalize run before .empty = w at *
    have hconsuming := consuming_of_freezes htracked hfreezes hrow' hpayload hkey
    have hsound' := hsound.apply hrest.1
    have hfound {w' : QueueWorld} {r : MergeRequestRow}
        (hr : w'.db.row settings.gitlabProjectId event.iid = some r) :
        r ∈ w'.db.mergeRequests.rows ∧
          (settings.gitlabProjectId, event.iid) = (r.projectId, r.iid) := by
      obtain ⟨hmem, hkeys⟩ := KeyedTable.byKey_eq_some_iff.mp hr
      exact ⟨hmem, hkeys.symm⟩
    refine ⟨fun r hr hid ↦ ?_, ?_⟩
    · obtain ⟨hmem, hkeys⟩ := hfound hr
      obtain ⟨saved, hsaved, hholds⟩ := (hconsuming.run hrest.2.2).owned r hmem hid
      exact recognised_of_receipted hkeys (Or.inr ⟨saved, hsaved, hholds.consumed⟩)
    · rintro middle finish rest projectId item saved rfl hop hid new hnew hfresh r hr hsame
      obtain ⟨hmiddle, hfinish⟩ := hrest.2.2.append
      have hmiddleSound := hsound'.run hmiddle.permitted
      have hremembering := remembering_of_finalize hmiddleSound hfinish.1
        (hconsuming.run hmiddle) hop hid hnew hfresh
      have hlater := hremembering.run (hmiddleSound.apply hfinish.1) hfinish.2.2.permitted
      have hrun : run (middle ++ finish :: rest) (call.apply w) =
          run rest (finish.apply (run middle (call.apply w))) := by
        rw [run, List.foldl_append]
        rfl
      rw [hrun] at hr
      obtain ⟨hmem, hkeys⟩ := hfound hr
      exact recognised_of_receipted hkeys (Or.inl (hlater.rows r hmem hsame))

/-! ### A promotion before the merge -/

def promotionSettings : Settings where
  gitlabProjectId := 1
  rounds := 0

def promotion (updatedAt : ℤ) (messageId : String) : MergeRequestEvent where
  iid := 7
  title := "Fix the build"
  state := .opened
  action := .labeled
  targetBranch := "master"
  userId := 3
  labels := ["merge_queue", "hotfix"]
  labelChanges := some { previous := ["merge_queue"], current := ["merge_queue", "hotfix"] }
  updatedAt := some updatedAt
  messageId := some messageId

namespace Promotion

def call (now : ℤ) (op : QueueOp) : Call := { qm := {}, now, tokens := id, op }

/-- The last item that the calls hand out. -/
def lastItem (calls : List Call) : QueueItem :=
  (run calls .empty).items.getLastD (rowToQueueItem sampleRow)

def admitting (calls : List Call) (now : ℤ) (messageId : String) (allowActive : Bool) : Call :=
  let item := lastItem calls
  call now (.deferRequeue 1 item
    (MRWebhookHandler.enqueueRequest promotionSettings (promotion now messageId) item) allowActive)

/-- The merge request waits and is promoted. -/
def before : List Call :=
  let opening := [call 0 (.addToQueue 1 sampleMergeRequest false)]
  opening ++ [admitting opening 3000000 "first" true]

def merge : Call := call 5000000 (.prepareCompletion 1 7 sampleCompletion)

/-- A second promotion arrives after the merge. -/
def middle : List Call :=
  let calls := before ++ [merge]
  [admitting calls 6000000 "second" false, call 7000000 (.getQueueItem 1 7)]

def finish : Call :=
  let item := lastItem (before ++ merge :: middle)
  call 8000000 (.finalizeCompletion 1 item
    (item.pendingCompletion.getD (completionPayload item sampleCompletion 5000000)))

def row : MergeRequestRow := ((run before .empty).db.row 1 7).getD sampleRow

end Promotion

open Promotion in
/-- The first promotion is recognised on the row that the second one leads to. -/
theorem completion_splits_admission_promoted :
    ∃ r, (run (before ++ merge :: (middle ++ [finish])) .empty).db.row 1 7 = some r ∧ r.id = 2 ∧
      Recognised promotionSettings (promotion 3000000 "first") r := by
  have hfound : ((run (before ++ merge :: (middle ++ [finish])) .empty).db.row 1 7).map
      MergeRequestRow.id = some 2 := by decide +kernel
  obtain ⟨r, hr, hid⟩ := Option.map_eq_some_iff.mp hfound
  have hprepared : ((merge.apply (run before .empty)).db.row 1 7).bind (fun r ↦
      r.pendingCompletion.map CompletionPayload.consumedAdmissions) = some ["first"] := by
    decide +kernel
  obtain ⟨row', hrow', hconsumed⟩ := Option.bind_eq_some_iff.mp hprepared
  obtain ⟨payload, hpayload, hkeys⟩ := Option.map_eq_some_iff.mp hconsumed
  have hfreezes : merge.Freezes (run before .empty) 1 7 row :=
    ⟨sampleCompletion, rfl, by decide +kernel, by decide +kernel, by simp [sampleCompletion]⟩
  have hrun : run (before ++ merge :: (middle ++ [finish])) .empty =
      run (middle ++ [finish]) (merge.apply (run before .empty)) := by
    rw [run, List.foldl_append]
    rfl
  have hlast : run (middle ++ [finish]) (merge.apply (run before .empty)) =
      finish.apply (run middle (merge.apply (run before .empty))) := by
    rw [run, List.foldl_append]
    rfl
  have hmem : r ∈ (finish.apply (run middle
      (merge.apply (run before .empty)))).db.mergeRequests.rows := by
    rw [← hlast, ← hrun]
    exact KeyedTable.mem_of_byKey hr
  have hnext : (run middle (merge.apply (run before .empty))).db.mergeRequests.nextId = 2 := by
    decide +kernel
  refine ⟨r, hr, hid, ?_⟩
  rw [hrun] at hr
  exact (completion_splits_admission.2 promotionSettings (promotion 3000000 "first") before
    (middle ++ [finish]) merge row row' payload (by decide +kernel) hfreezes hrow' hpayload
    (by rw [hkeys]; decide)).2 middle finish [] 1 _ _ rfl rfl (by decide +kernel) r hmem
    (by omega) r hr rfl

end MergeQueue
