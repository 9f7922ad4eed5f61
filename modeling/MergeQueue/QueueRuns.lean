import MergeQueue.QueueOps

/-!
# Runs of queue operations

Callers interleave whole transactions.  A caller passes on only items that some
earlier call handed out, and saves a completion record only with more progress
than the one it was given.  Beside the database a run remembers the values each
lifecycle had when its outcome was frozen, and the lifecycles that ended.
-/

namespace MergeQueue

open QueueManager

/-- `payload` differs from `saved` at most in the progress made. -/
def CompletionPayload.continues (payload saved : CompletionPayload) : Bool :=
  payload.queueId = saved.queueId && payload.request = saved.request &&
    payload.history = saved.history && payload.finishedAt = saved.finishedAt &&
    payload.consumedAdmissions = saved.consumedAdmissions

theorem CompletionPayload.history_of_continues {payload saved : CompletionPayload}
    (h : payload.continues saved = true) : payload.history = saved.history := by
  simp only [continues, Bool.and_eq_true, decide_eq_true_eq] at h
  exact h.1.1.2

theorem CompletionPayload.request_of_continues {payload saved : CompletionPayload}
    (h : payload.continues saved = true) : payload.request = saved.request := by
  simp only [continues, Bool.and_eq_true, decide_eq_true_eq] at h
  exact h.1.1.1.2

/-- A call with everything it draws from outside. -/
structure Call where
  qm : QueueManager
  now : ℤ
  tokens : ℕ → Uuid
  op : QueueOp

structure QueueWorld where
  db : Database
  items : List QueueItem := []
  frozen : List (ℕ × HistoryParams) := []
  ended : List HistoryParams := []

def QueueWorld.empty : QueueWorld where
  db := .empty

/-- The values of the lifecycle that a call with the answer `done` ends. -/
def QueueOp.ends (now : ℤ) (w : QueueWorld) : (op : QueueOp) → op.Answer → List HistoryParams
  | completeMr projectId mrIid outcome _, done =>
      if done then
        (w.db.row projectId mrIid).toList.map fun row ↦
          historyParams (rowToQueueItem row) outcome now
      else []
  | finalizeCompletion _ item _, done =>
      if done then (w.frozen.lookup item.queueId).toList else []
  | _, _ => []

namespace Call

/-- The caller may make the call with what it was given so far. -/
def permitted (call : Call) (w : QueueWorld) : Bool :=
  match call.op with
  | .deferRequeue _ item _ _ | .finalizeCompletion _ item _ => w.items.contains item
  | .saveCompletionProgress _ queueId payload =>
      w.items.any fun item ↦
        item.queueId = queueId && item.pendingCompletion.any payload.continues
  | _ => true

/-- The lifecycle whose outcome the call freezes, and the values it has then. -/
def freezes (call : Call) (db : Database) : List (ℕ × HistoryParams) :=
  match call.op with
  | .prepareCompletion projectId mrIid request =>
      ((db.row projectId mrIid).filter fun row ↦
        (request.queueId.all fun id ↦ row.id = id) && row.pendingCompletion.isNone).toList.map
        fun row ↦
          (row.id, historyParams (rowToQueueItem row) request.outcome
            (finishedTime request.context call.now))
  | _ => []

/-- A call that raises leaves everything as it was. -/
def apply (call : Call) (w : QueueWorld) : QueueWorld :=
  match call.op.exec call.qm call.now call.tokens w.db with
  | .ok (answer, db) =>
      { db
        items := w.items ++ call.op.items answer
        frozen := w.frozen ++ call.freezes w.db
        ended := w.ended ++ call.op.ends call.now w answer }
  | .error _ => w

end Call

/-- The world after `calls`. -/
def run (calls : List Call) (w : QueueWorld) : QueueWorld :=
  calls.foldl (fun w call ↦ call.apply w) w

@[simp] theorem run_nil (w : QueueWorld) : run [] w = w := rfl

@[simp] theorem run_cons (call : Call) (calls : List Call) (w : QueueWorld) :
    run (call :: calls) w = run calls (call.apply w) := rfl

/-- Every call of the run is one that its caller may make. -/
def Permitted : List Call → QueueWorld → Prop
  | [], _ => True
  | call :: calls, w => call.permitted w = true ∧ Permitted calls (call.apply w)

instance : (calls : List Call) → (w : QueueWorld) → Decidable (Permitted calls w)
  | [], _ => .isTrue trivial
  | call :: calls, w =>
      have : Decidable (Permitted calls (call.apply w)) := instDecidablePermitted calls _
      inferInstanceAs (Decidable (_ ∧ _))

/-! ## The items of an answer -/

namespace QueueOp

/-- The item shows the row it was read from. -/
structure Shows (item : QueueItem) (r : MergeRequestRow) : Prop where
  queueId : item.queueId = r.id
  projectId : item.projectId = r.projectId
  mrIid : item.mrIid = r.iid
  pendingCompletion : item.pendingCompletion = r.pendingCompletion

theorem shows_rowToQueueItem (r : MergeRequestRow) : Shows (rowToQueueItem r) r :=
  ⟨rfl, rfl, rfl, rfl⟩

theorem shows_of_mem_map {rows : List MergeRequestRow} {item : QueueItem}
    (h : item ∈ rows.map rowToQueueItem) : ∃ r ∈ rows, Shows item r := by
  obtain ⟨r, hr, rfl⟩ := List.mem_map.mp h
  exact ⟨r, hr, shows_rowToQueueItem r⟩

theorem shows_of_selectQueueItem {db : Database} {projectId mrIid : ℕ} {item : QueueItem}
    (h : item ∈ (db.selectQueueItem projectId mrIid).toList) :
    ∃ r ∈ db.mergeRequests.rows, Shows item r := by
  obtain ⟨r, hr, rfl⟩ := Option.map_eq_some_iff.mp (Option.mem_toList.mp h)
  exact ⟨r, KeyedTable.mem_of_byKey hr, shows_rowToQueueItem r⟩

theorem shows_of_prepareCompletion {projectId mrIid : ℕ} {request : CompletionRequest} {now : ℤ}
    {db db' : Database} {answer : Option QueueItem}
    (h : QueueManager.prepareCompletion projectId mrIid request now db = .ok (answer, db'))
    {item : QueueItem} (hitem : item ∈ answer.toList) :
    ∃ r ∈ db'.mergeRequests.rows, Shows item r := by
  rcases QueueOp.prepareCompletion_eq_ok h with
    ⟨rfl, rfl, -⟩ | ⟨rfl, row, hrow, -, -, rfl⟩ | ⟨row, hrow, -, -, -, -, hrows, rfl⟩
  · simp at hitem
  · obtain rfl := Option.some.inj (Option.mem_toList.mp hitem)
    exact ⟨row, KeyedTable.mem_of_byKey hrow, shows_rowToQueueItem row⟩
  · obtain rfl := Option.some.inj (Option.mem_toList.mp hitem)
    refine ⟨preparedRow request now row, ?_, rfl, rfl, rfl, rfl⟩
    rw [hrows]
    exact List.mem_map.mpr ⟨row, KeyedTable.mem_of_byKey hrow, if_pos rfl⟩

/-- An item that a call hands out shows a row of the result. -/
theorem exec_items {qm : QueueManager} {now : ℤ} {tokens : ℕ → Uuid} {op : QueueOp}
    {db db' : Database} {answer : op.Answer} (h : op.exec qm now tokens db = .ok (answer, db'))
    {item : QueueItem} (hitem : item ∈ op.items answer) :
    ∃ r ∈ db'.mergeRequests.rows, Shows item r := by
  cases op with
  | addToQueue projectId mr isHotfix =>
      simp only [exec, QueueManager.addToQueue] at h
      obtain ⟨⟨hotfix, automated⟩, -, h⟩ := bind_eq_ok.mp h
      cases h
      exact shows_of_selectQueueItem hitem
  | getQueueItem projectId mrIid =>
      cases h
      exact shows_of_selectQueueItem hitem
  | getActiveQueue projectId =>
      cases h
      obtain ⟨r, hr, hshows⟩ := shows_of_mem_map hitem
      rw [selectActiveQueue, List.mem_insertionSort] at hr
      exact ⟨r, List.mem_of_mem_filter hr, hshows⟩
  | getPendingCompletions projectId =>
      cases h
      obtain ⟨r, hr, hshows⟩ := shows_of_mem_map hitem
      exact ⟨r, List.mem_of_mem_filter hr, hshows⟩
  | getStaleMrs projectId cutoff =>
      cases h
      obtain ⟨r, hr, hshows⟩ := shows_of_mem_map hitem
      rw [List.mem_insertionSort] at hr
      exact ⟨r, List.mem_of_mem_filter hr, hshows⟩
  | prepareCompletion projectId mrIid request => exact shows_of_prepareCompletion h hitem
  | _ => simp [items] at hitem

end QueueOp

/-! ## What every run keeps -/

/-- The admission of a saved request, live or cancelled, is one of the row it is saved on. -/
def RequestsOwnRow (r : MergeRequestRow) : Prop :=
  ∀ request ∈ r.requeueRequest, ∀ admission ∈ request.admission,
    admission.params.projectId = r.projectId ∧ admission.params.iid = r.iid

namespace QueueWorld

structure Sound (w : QueueWorld) : Prop where
  requests : ∀ r ∈ w.db.mergeRequests.rows, RequestsOwnRow r
  below : ∀ item ∈ w.items, item.queueId < w.db.mergeRequests.nextId
  shown : ∀ item ∈ w.items, ∀ r ∈ w.db.mergeRequests.rows, r.id = item.queueId →
    r.projectId = item.projectId ∧ r.iid = item.mrIid

end QueueWorld

theorem admission_of_writtenRequeue {incoming : Incoming} {previous : Option Requeue}
    {token : Uuid} {pending : Requeue} {admission : Admission}
    (h : writtenRequeue incoming previous token = some pending)
    (hadmission : pending.admission = some admission) :
    (∃ saved ∈ previous, saved.admission = some admission) ∨
      ∃ request params, incoming = .enqueue request params ∧
        admission.params.projectId = params.projectId ∧
        admission.params.iid = params.iid := by
  unfold writtenRequeue at h
  simp only at h
  split_ifs at h
  · cases h
    cases incoming with
    | enqueue request params =>
        refine Or.inr ⟨request, params, rfl, ?_⟩
        cases hadmission
        exact ⟨rfl, rfl⟩
    | cancel eventAt precisionUs messageId =>
        obtain ⟨saved, hsaved, hold⟩ := Option.bind_eq_some_iff.mp hadmission
        exact Or.inl ⟨saved, hsaved, hold⟩

theorem admission_of_refreshedRequeue {saved pending : Requeue} {labels : List String}
    {source : SourceClock} {admission : Admission}
    (h : refreshedRequeue saved labels source = some pending)
    (hadmission : pending.admission = some admission) :
    ∃ old, saved.admission = some old ∧ admission.params.projectId = old.params.projectId ∧
      admission.params.iid = old.params.iid := by
  unfold refreshedRequeue at h
  split at h
  · cases h
  · next old hintent =>
      simp only at h
      split_ifs at h
      all_goals
        cases h
        cases hadmission
        exact ⟨old, by simp [Requeue.admission, hintent], rfl, rfl⟩

theorem admission_of_completionAdmission {item : QueueItem} {finished : ℤ} {request : Requeue}
    (h : (completionAdmission item finished).1 = some request) :
    item.requeueRequest = some request := by
  unfold completionAdmission at h
  split at h
  · cases h
  · next saved hsaved =>
      simp only at h
      split_ifs at h
      · cases h
        exact hsaved

theorem RequestsOwnRow.of_requeueRequest {r r' : MergeRequestRow} (h : RequestsOwnRow r)
    (hproject : r'.projectId = r.projectId) (hiid : r'.iid = r.iid)
    (hrequests : ∀ request ∈ r'.requeueRequest, ∀ admission ∈ request.admission,
      ∃ saved ∈ r.requeueRequest, ∃ old ∈ saved.admission,
        admission.params.projectId = old.params.projectId ∧
        admission.params.iid = old.params.iid) : RequestsOwnRow r' := by
  intro request hrequest admission hadmission
  obtain ⟨saved, hsaved, old, hold, hp, hi⟩ := hrequests request hrequest admission hadmission
  obtain ⟨hproject', hiid'⟩ := h saved hsaved old hold
  exact ⟨hp.trans (hproject'.trans hproject.symm), hi.trans (hiid'.trans hiid.symm)⟩

theorem RequestsOwnRow.of_requeueRequest_eq {r r' : MergeRequestRow} (h : RequestsOwnRow r)
    (hproject : r'.projectId = r.projectId) (hiid : r'.iid = r.iid)
    (hrequest : r'.requeueRequest = r.requeueRequest) : RequestsOwnRow r' := by
  refine h.of_requeueRequest hproject hiid fun request hr admission ha ↦ ?_
  exact ⟨request, hrequest ▸ hr, admission, ha, rfl, rfl⟩

theorem requestsOwnRow_of_fresh {r : MergeRequestRow} (h : QueueOp.Fresh r) :
    RequestsOwnRow r := by
  obtain ⟨params, isHotfix, isAutomated, queuedAt, note, ignored, h⟩ := h
  intro request hrequest
  rw [h] at hrequest
  cases hrequest

theorem requestsOwnRow_of_mayWriteRequeue {r : MergeRequestRow} {projectId queueId : ℕ}
    {allowActive : Bool} (h : mayWriteRequeue projectId queueId allowActive r = true) :
    r.projectId = projectId ∧ r.id = queueId := by
  simp only [mayWriteRequeue, Bool.and_eq_true, decide_eq_true_eq] at h
  exact ⟨h.1.1, h.1.2⟩

/-- The only call that brings in new parameters takes them from an item of the row. -/
theorem RequestsOwnRow.rowChange {now : ℤ} {op : QueueOp} {r r' : MergeRequestRow}
    (h : RequestsOwnRow r) (hchange : op.RowChange now r r')
    (hitem : ∀ projectId item request allowActive,
      op = .deferRequeue projectId item request allowActive → r.id = item.queueId →
        r.iid = item.mrIid) : RequestsOwnRow r' := by
  cases op with
  | removeFromQueue | markStaleWarningSent =>
      rcases hchange with rfl | ⟨-, -, rfl⟩
      · exact h
      · exact h.of_requeueRequest_eq rfl rfl rfl
  | updateMrState | saveCompletionProgress =>
      rcases hchange with rfl | ⟨-, -, -, rfl⟩
      · exact h
      · exact h.of_requeueRequest_eq rfl rfl rfl
  | clearPendingNotification | stageCompletionPositions =>
      obtain ⟨note, rfl⟩ := hchange
      exact h.of_requeueRequest_eq rfl rfl rfl
  | finalizeCompletion =>
      obtain ⟨note, ignored, rfl⟩ := hchange
      exact h.of_requeueRequest_eq rfl rfl rfl
  | updateHotfixStatus | activatePriorities =>
      obtain ⟨_, _, _, _, _, requeue, rfl, hrequeue⟩ := hchange
      refine h.of_requeueRequest rfl rfl fun request hrequest admission hadmission ↦ ?_
      rcases hrequeue with rfl | ⟨saved, applied, hsaved, rfl⟩
      · exact ⟨request, hrequest, admission, hadmission, rfl, rfl⟩
      · cases hrequest
        exact ⟨saved, hsaved, admission, hadmission, rfl, rfl⟩
  | deferRequeue projectId item request allowActive =>
      rcases hchange with rfl | ⟨hmay, token, pending, hwritten, rfl⟩
      · exact h
      · obtain ⟨hproject, hid⟩ := requestsOwnRow_of_mayWriteRequeue hmay
        intro written hpending admission hadmission
        cases hpending
        rcases admission_of_writtenRequeue hwritten hadmission with
          ⟨saved, hsaved, hold⟩ | ⟨_, _, heq, hp, hi⟩
        · exact h saved hsaved admission hold
        · cases heq
          exact ⟨hp.trans hproject.symm, hi.trans (hitem _ _ _ _ rfl hid).symm⟩
  | cancelRequeue projectId queueId eventAt precisionUs messageId allowActive =>
      rcases hchange with rfl | ⟨-, token, pending, hwritten, rfl⟩
      · exact h
      · refine h.of_requeueRequest rfl rfl fun written hpending admission hadmission ↦ ?_
        cases hpending
        rcases admission_of_writtenRequeue hwritten hadmission with
          ⟨saved, hsaved, hold⟩ | ⟨_, _, heq, -, -⟩
        · exact ⟨saved, hsaved, admission, hold, rfl, rfl⟩
        · cases heq
  | refreshRequeueLabels projectId queueId labels eventAt precisionUs allowActive =>
      rcases hchange with rfl | ⟨-, saved, pending, hsaved, hrefreshed, rfl⟩
      · exact h
      · refine h.of_requeueRequest rfl rfl fun written hpending admission hadmission ↦ ?_
        cases hpending
        obtain ⟨old, hold, hp, hi⟩ := admission_of_refreshedRequeue hrefreshed hadmission
        exact ⟨saved, hsaved, old, hold, hp, hi⟩
  | prepareCompletion projectId mrIid request =>
      rcases hchange with rfl | ⟨-, -, -, -, rfl⟩
      · exact h
      · refine h.of_requeueRequest rfl rfl fun written hpending admission hadmission ↦ ?_
        exact ⟨written, admission_of_completionAdmission hpending, admission, hadmission, rfl,
          rfl⟩
  | addToQueue | getQueueItem | getActiveQueue | getPendingCompletions | getStaleMrs | getMrState
  | completeMr | cleanupOldEntries =>
      cases hchange
      exact h

namespace QueueWorld

theorem sound_empty : QueueWorld.empty.Sound where
  requests := by simp [empty, Database.empty, KeyedTable.empty]
  below := by simp [empty]
  shown := by simp [empty]

theorem Sound.apply {call : Call} {w : QueueWorld} (h : w.Sound)
    (hpermitted : call.permitted w = true) : (call.apply w).Sound := by
  rw [Call.apply]
  cases hexec : call.op.exec call.qm call.now call.tokens w.db with
  | error e => exact h
  | ok result =>
      obtain ⟨answer, db'⟩ := result
      have hevolves := QueueOp.exec_evolves hexec
      refine ⟨?_, ?_, ?_⟩
      · refine hevolves.forall_rows h.requests ?_ fun r _ ↦ requestsOwnRow_of_fresh
        intro r hr r' _ _ hchange hrequests
        refine hrequests.rowChange hchange fun projectId item request allowActive hop hid ↦ ?_
        have hitem : item ∈ w.items := by simpa [Call.permitted, hop] using hpermitted
        exact (h.shown item hitem r hr hid).2
      · intro item hitem
        rcases List.mem_append.mp hitem with hold | hnew
        · exact (h.below item hold).trans_le hevolves.nextId_le
        · obtain ⟨r, hr, hshows⟩ := QueueOp.exec_items hexec hnew
          exact hshows.queueId ▸ db'.mergeRequests.below r hr
      · intro item hitem r' hr' hid
        rcases List.mem_append.mp hitem with hold | hnew
        · have hlt : Keyed.rowId r' < w.db.mergeRequests.nextId :=
            hid.trans_lt (h.below item hold)
          obtain ⟨r, hr, hid', hkey, -⟩ := hevolves.of_rowId_lt hr' hlt
          simp only [key_mergeRequestRow, Prod.mk.injEq] at hkey
          rw [hkey.1, hkey.2]
          exact h.shown item hold r hr (hid'.symm.trans hid)
        · obtain ⟨r, hr, hshows⟩ := QueueOp.exec_items hexec hnew
          obtain rfl := db'.mergeRequests.eq_of_rowId_eq hr' hr (hid.trans hshows.queueId)
          exact ⟨hshows.projectId.symm, hshows.mrIid.symm⟩

theorem Sound.run {calls : List Call} {w : QueueWorld} (h : w.Sound)
    (hpermitted : Permitted calls w) : (run calls w).Sound := by
  induction calls generalizing w with
  | nil => exact h
  | cons call calls ih => exact ih (h.apply hpermitted.1) hpermitted.2

end QueueWorld

end MergeQueue
