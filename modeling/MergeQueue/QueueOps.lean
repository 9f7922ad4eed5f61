import MergeQueue.QueueManager

/-!
# Queue operations as data

One value for each call of the queue manager, with the type of its answer.  The
table of queue rows evolves under every call in one of a few ways, which are
stated once, call by call, for all later invariants.
-/

namespace MergeQueue

inductive QueueOp
  | addToQueue (projectId : ℕ) (mr : MergeRequest) (isHotfix : Bool)
  | removeFromQueue (projectId mrIid : ℕ)
  | getQueueItem (projectId mrIid : ℕ)
  | getActiveQueue (projectId : ℕ)
  | getPendingCompletions (projectId : ℕ)
  | getStaleMrs (projectId : ℕ) (cutoff : ℤ)
  | getMrState (projectId mrIid : ℕ)
  | updateMrState (projectId mrIid : ℕ) (state : Status) (extra : QueueManager.Extra)
  | markStaleWarningSent (projectId mrIid : ℕ)
  | clearPendingNotification (projectId mrIid : ℕ) (pending : PendingNotification)
  | stageCompletionPositions (projectId : ℕ) (positions : List (ℕ × ℕ)) (oldTotal : ℕ)
  | updateHotfixStatus (projectId mrIid : ℕ) (isHotfix : Bool) (labels : List String)
      (expectedRevision : Option (ℕ × ℕ)) (notifyPositions : Bool) (admissionKey : Option String)
      (isAutomated : Option Bool)
  | activatePriorities (projectId : ℕ)
  | deferRequeue (projectId : ℕ) (item : QueueItem) (request : EnqueueRequest)
      (allowActive : Bool)
  | cancelRequeue (projectId queueId : ℕ) (eventAt precisionUs : ℤ) (messageId : Option String)
      (allowActive : Bool)
  | refreshRequeueLabels (projectId queueId : ℕ) (labels : List String) (eventAt : Option ℤ)
      (precisionUs : ℤ) (allowActive : Bool)
  | prepareCompletion (projectId mrIid : ℕ) (request : CompletionRequest)
  | saveCompletionProgress (projectId queueId : ℕ) (payload : CompletionPayload)
  | finalizeCompletion (projectId : ℕ) (item : QueueItem) (payload : CompletionPayload)
  | completeMr (projectId mrIid : ℕ) (outcome : Outcome) (expectedQueueId : Option ℕ)
  | cleanupOldEntries (projectId : ℕ) (cutoff : ℤ)
  deriving DecidableEq

namespace QueueOp

open QueueManager

/-- What a call returns to its caller. -/
abbrev Answer : QueueOp → Type
  | addToQueue .. | getQueueItem .. | prepareCompletion .. => Option QueueItem
  | getActiveQueue .. | getPendingCompletions .. | getStaleMrs .. => List QueueItem
  | getMrState .. => Option MrStateReport
  | removeFromQueue .. | updateMrState .. | markStaleWarningSent .. | updateHotfixStatus ..
  | deferRequeue .. | cancelRequeue .. | refreshRequeueLabels .. | finalizeCompletion ..
  | completeMr .. => Bool
  | activatePriorities .. => ActivationSummary
  | cleanupOldEntries .. => ℕ
  | clearPendingNotification .. | stageCompletionPositions .. | saveCompletionProgress .. => Unit

/-- The items that an answer hands to the caller. -/
def items : (op : QueueOp) → op.Answer → List QueueItem
  | addToQueue .., item | getQueueItem .., item | prepareCompletion .., item => Option.toList item
  | getActiveQueue .., items | getPendingCompletions .., items | getStaleMrs .., items => items
  | _, _ => []

/-- The transaction of a call at the time `now`. -/
def exec (qm : QueueManager) (now : ℤ) (tokens : ℕ → Uuid) :
    (op : QueueOp) → Database → Except QueueError (op.Answer × Database)
  | addToQueue projectId mr isHotfix, db => qm.addToQueue projectId mr isHotfix now db
  | removeFromQueue projectId mrIid, db => .ok (QueueManager.removeFromQueue projectId mrIid db)
  | getQueueItem projectId mrIid, db => .ok (db.selectQueueItem projectId mrIid, db)
  | getActiveQueue projectId, db => .ok (QueueManager.getActiveQueue projectId db, db)
  | getPendingCompletions projectId, db =>
      .ok (QueueManager.getPendingCompletions projectId db, db)
  | getStaleMrs projectId cutoff, db => .ok (QueueManager.getStaleMrs projectId cutoff db, db)
  | getMrState projectId mrIid, db => .ok (QueueManager.getMrState projectId mrIid db, db)
  | updateMrState projectId mrIid state extra, db =>
      QueueManager.updateMrState projectId mrIid state extra now db
  | markStaleWarningSent projectId mrIid, db =>
      .ok (QueueManager.markStaleWarningSent projectId mrIid db)
  | clearPendingNotification projectId mrIid pending, db =>
      .ok ((), QueueManager.clearPendingNotification projectId mrIid pending db)
  | stageCompletionPositions projectId positions oldTotal, db =>
      .ok ((), QueueManager.stageCompletionPositions projectId positions oldTotal tokens db)
  | updateHotfixStatus projectId mrIid isHotfix labels expectedRevision notifyPositions
      admissionKey isAutomated, db =>
      qm.updateHotfixStatus projectId mrIid isHotfix labels expectedRevision notifyPositions
        admissionKey isAutomated now tokens db
  | activatePriorities projectId, db => qm.activatePriorities projectId tokens db
  | deferRequeue projectId item request allowActive, db =>
      QueueManager.deferRequeue projectId item request allowActive (tokens 0) db
  | cancelRequeue projectId queueId eventAt precisionUs messageId allowActive, db =>
      QueueManager.cancelRequeue projectId queueId eventAt precisionUs messageId allowActive
        (tokens 0) db
  | refreshRequeueLabels projectId queueId labels eventAt precisionUs allowActive, db =>
      QueueManager.refreshRequeueLabels projectId queueId labels eventAt precisionUs allowActive db
  | prepareCompletion projectId mrIid request, db =>
      QueueManager.prepareCompletion projectId mrIid request now db
  | saveCompletionProgress projectId queueId payload, db =>
      .ok ((), QueueManager.saveCompletionProgress projectId queueId payload db)
  | finalizeCompletion projectId item payload, db =>
      qm.finalizeCompletion projectId item payload now tokens db
  | completeMr projectId mrIid outcome expectedQueueId, db =>
      .ok (QueueManager.completeMr projectId mrIid outcome expectedQueueId now db)
  | cleanupOldEntries projectId cutoff, db =>
      .ok (QueueManager.cleanupOldEntries projectId cutoff db)

/-! ## What a call does to a row -/

def Kept (r r' : MergeRequestRow) : Prop := r' = r

/-- Only the feedback that still has to be sent changed. -/
def Feedback (r r' : MergeRequestRow) : Prop :=
  ∃ note, r' = { r with pendingNotification := note }

/-- Only the feedback and the events to ignore changed. -/
def Noted (r r' : MergeRequestRow) : Prop :=
  ∃ note ignored, r' = { r with pendingNotification := note, ignoredLabelEvents := ignored }

/-- Only the class, the labels and the feedback changed; a saved request may have
been marked as applied. -/
def Reclassified (r r' : MergeRequestRow) : Prop :=
  ∃ isHotfix isAutomated labels version note requeue,
    r' =
      { r with
        isHotfix
        isAutomated
        labels
        metadataVersion := version
        pendingNotification := note
        requeueRequest := requeue } ∧
    (requeue = r.requeueRequest ∨
      ∃ saved applied, r.requeueRequest = some saved ∧
        requeue = some { saved with appliedAt := applied })

/-- At most the saved request was marked as applied. -/
def Applied (r r' : MergeRequestRow) : Prop :=
  r' = r ∨ ∃ saved applied, r.requeueRequest = some saved ∧
    r' = { r with requeueRequest := some { saved with appliedAt := applied } }

/-- A row that an insertion made. -/
def Fresh (r : MergeRequestRow) : Prop :=
  ∃ params isHotfix isAutomated queuedAt note ignored,
    r =
      { insertedRow params isHotfix isAutomated queuedAt r.id with
        pendingNotification := note
        ignoredLabelEvents := ignored }

/-- How a call at the time `now` may leave a row behind. -/
def RowChange (now : ℤ) : QueueOp → MergeRequestRow → MergeRequestRow → Prop
  | removeFromQueue projectId mrIid, r, r' =>
      r' = r ∨ (r.projectId = projectId ∧ r.iid = mrIid ∧ r' = { r with status := .removed })
  | updateMrState projectId mrIid state extra, r, r' =>
      r' = r ∨ (r.projectId = projectId ∧ r.iid = mrIid ∧ r.pendingCompletion = none ∧
        r' = updatedRow state extra now r)
  | markStaleWarningSent projectId mrIid, r, r' =>
      r' = r ∨ (r.projectId = projectId ∧ r.iid = mrIid ∧ r' = { r with staleWarningSent := true })
  | clearPendingNotification .., r, r' | stageCompletionPositions .., r, r' => Feedback r r'
  | finalizeCompletion .., r, r' => Noted r r'
  | updateHotfixStatus .., r, r' | activatePriorities .., r, r' => Reclassified r r'
  | deferRequeue projectId item request allowActive, r, r' =>
      r' = r ∨ (mayWriteRequeue projectId item.queueId allowActive r = true ∧ ∃ token pending,
        writtenRequeue (.enqueue request (requeueParams projectId item request)) r.requeueRequest
          token = some pending ∧ r' = { r with requeueRequest := some pending })
  | cancelRequeue projectId queueId eventAt precisionUs messageId allowActive, r, r' =>
      r' = r ∨ (mayWriteRequeue projectId queueId allowActive r = true ∧ ∃ token pending,
        writtenRequeue (.cancel eventAt precisionUs messageId) r.requeueRequest token =
          some pending ∧ r' = { r with requeueRequest := some pending })
  | refreshRequeueLabels projectId queueId labels eventAt precisionUs allowActive, r, r' =>
      r' = r ∨ (mayWriteRequeue projectId queueId allowActive r = true ∧ ∃ saved pending,
        r.requeueRequest = some saved ∧
        refreshedRequeue saved labels { requestedAt := eventAt, precisionUs } = some pending ∧
        r' = { r with requeueRequest := some pending })
  | prepareCompletion projectId mrIid request, r, r' =>
      r' = r ∨ (r.projectId = projectId ∧ r.iid = mrIid ∧
        (∀ id, request.queueId = some id → r.id = id) ∧ r.pendingCompletion = none ∧
        r' = preparedRow request now r)
  | saveCompletionProgress projectId queueId payload, r, r' =>
      r' = r ∨ (r.projectId = projectId ∧ r.id = queueId ∧ r.pendingCompletion.isSome = true ∧
        r' = { r with pendingCompletion := some payload })
  | addToQueue .., r, r' | getQueueItem .., r, r' | getActiveQueue .., r, r'
  | getPendingCompletions .., r, r' | getStaleMrs .., r, r' | getMrState .., r, r'
  | completeMr .., r, r' | cleanupOldEntries .., r, r' => Kept r r'

/-- The rows that a call may delete.  Only a finished completion deletes a row that
a completion owns. -/
def Deletes : QueueOp → MergeRequestRow → Prop
  | addToQueue projectId mr _, r =>
      r.projectId = projectId ∧ r.iid = mr.iid ∧ r.pendingCompletion = none
  | finalizeCompletion projectId item payload, r =>
      r.projectId = projectId ∧ r.id = item.queueId ∧ r.pendingCompletion = some payload
  | completeMr projectId mrIid _ expectedQueueId, r =>
      r.projectId = projectId ∧ r.iid = mrIid ∧ r.pendingCompletion = none ∧
        ∀ id ∈ expectedQueueId, r.id = id
  | cleanupOldEntries projectId _, r => r.projectId = projectId ∧ r.pendingCompletion = none
  | _, _ => False

def completing : QueueOp → Bool
  | finalizeCompletion .. | completeMr .. => true
  | _ => false

/-- The database after the row of `item` is archived and before its request is transferred. -/
def archived (projectId : ℕ) (item : QueueItem) (payload : CompletionPayload) (db : Database) :
    Database :=
  insertHistory
    { db with
      mergeRequests := db.mergeRequests.deleteWhere fun r ↦
        r.projectId = projectId && r.id = item.queueId &&
          r.pendingCompletion = some payload && r.requeueRequest = item.requeueRequest }
    payload.history

namespace Kept

theorem refl (r : MergeRequestRow) : Kept r r := rfl

theorem trans {a b c : MergeRequestRow} (hab : Kept a b) (hbc : Kept b c) : Kept a c :=
  Eq.trans hbc hab

theorem fresh {a b : MergeRequestRow} (hab : Kept a b) (ha : Fresh a) : Fresh b := by
  cases hab
  exact ha

end Kept

namespace Feedback

theorem refl (r : MergeRequestRow) : Feedback r r := ⟨r.pendingNotification, rfl⟩

theorem trans {a b c : MergeRequestRow} (hab : Feedback a b) (hbc : Feedback b c) :
    Feedback a c := by
  obtain ⟨_, rfl⟩ := hab
  obtain ⟨note, rfl⟩ := hbc
  exact ⟨note, rfl⟩

theorem fresh {a b : MergeRequestRow} (hab : Feedback a b) (ha : Fresh a) : Fresh b := by
  obtain ⟨params, isHotfix, isAutomated, queuedAt, _, ignored, ha⟩ := ha
  obtain ⟨note, rfl⟩ := hab
  refine ⟨params, isHotfix, isAutomated, queuedAt, note, ignored, ?_⟩
  rw [ha]
  rfl

end Feedback

namespace Noted

theorem refl (r : MergeRequestRow) : Noted r r :=
  ⟨r.pendingNotification, r.ignoredLabelEvents, rfl⟩

theorem of_feedback {a b : MergeRequestRow} (h : Feedback a b) : Noted a b := by
  obtain ⟨note, rfl⟩ := h
  exact ⟨note, a.ignoredLabelEvents, rfl⟩

theorem trans {a b c : MergeRequestRow} (hab : Noted a b) (hbc : Noted b c) : Noted a c := by
  obtain ⟨_, _, rfl⟩ := hab
  obtain ⟨note, ignored, rfl⟩ := hbc
  exact ⟨note, ignored, rfl⟩

theorem fresh {a b : MergeRequestRow} (hab : Noted a b) (ha : Fresh a) : Fresh b := by
  obtain ⟨params, isHotfix, isAutomated, queuedAt, _, _, ha⟩ := ha
  obtain ⟨note, ignored, rfl⟩ := hab
  refine ⟨params, isHotfix, isAutomated, queuedAt, note, ignored, ?_⟩
  rw [ha]
  rfl

end Noted

namespace Reclassified

theorem refl (r : MergeRequestRow) : Reclassified r r :=
  ⟨r.isHotfix, r.isAutomated, r.labels, r.metadataVersion, r.pendingNotification,
    r.requeueRequest, rfl, Or.inl rfl⟩

theorem of_feedback {a b : MergeRequestRow} (h : Feedback a b) : Reclassified a b := by
  obtain ⟨note, rfl⟩ := h
  exact ⟨a.isHotfix, a.isAutomated, a.labels, a.metadataVersion, note, a.requeueRequest, rfl,
    Or.inl rfl⟩

theorem of_applied {a b : MergeRequestRow} (h : Applied a b) : Reclassified a b := by
  rcases h with rfl | ⟨saved, applied, hsaved, rfl⟩
  · exact refl b
  · exact ⟨a.isHotfix, a.isAutomated, a.labels, a.metadataVersion, a.pendingNotification, _, rfl,
      Or.inr ⟨saved, applied, hsaved, rfl⟩⟩

theorem trans {a b c : MergeRequestRow} (hab : Reclassified a b) (hbc : Reclassified b c) :
    Reclassified a c := by
  obtain ⟨_, _, _, _, _, between, rfl, hab⟩ := hab
  obtain ⟨isHotfix, isAutomated, labels, version, note, requeue, rfl, hbc⟩ := hbc
  refine ⟨isHotfix, isAutomated, labels, version, note, requeue, rfl, ?_⟩
  rcases hbc with rfl | ⟨saved, applied, hsaved, rfl⟩
  · exact hab
  · rcases hab with hab | ⟨first, _, hfirst, hbetween⟩
    · exact Or.inr ⟨saved, applied, hab ▸ hsaved, rfl⟩
    · obtain rfl : { first with appliedAt := _ } = saved :=
        Option.some.inj (hbetween.symm.trans hsaved)
      exact Or.inr ⟨first, applied, hfirst, rfl⟩

end Reclassified

theorem RowChange.refl (now : ℤ) (op : QueueOp) (r : MergeRequestRow) : RowChange now op r r := by
  cases op
  case clearPendingNotification | stageCompletionPositions => exact Feedback.refl r
  case finalizeCompletion => exact Noted.refl r
  case updateHotfixStatus | activatePriorities => exact Reclassified.refl r
  case addToQueue | getQueueItem | getActiveQueue | getPendingCompletions | getStaleMrs
      | getMrState | completeMr | cleanupOldEntries => exact Kept.refl r
  all_goals exact Or.inl rfl

theorem fresh_insertedRow (params : RequeueParams) (isHotfix isAutomated : Bool) (queuedAt : ℤ)
    (id : ℕ) : Fresh (insertedRow params isHotfix isAutomated queuedAt id) :=
  ⟨params, isHotfix, isAutomated, queuedAt, none, [], rfl⟩

/-! ## Calls that stage feedback -/

open KeyedTable (Evolves)

theorem Feedback.identity {r r' : MergeRequestRow} (h : Feedback r r') :
    Keyed.rowId r' = Keyed.rowId r ∧ Keyed.key r' = Keyed.key r := by
  obtain ⟨note, rfl⟩ := h
  exact ⟨rfl, rfl⟩

theorem setPendingNotification_rows (table : KeyedTable MergeRequestRow) (id : ℕ)
    (pending : PendingNotification) :
    ∃ f : MergeRequestRow → MergeRequestRow, (∀ r, Feedback r (f r)) ∧
      (setPendingNotification table id pending).rows = table.rows.map f := by
  refine ⟨fun r ↦ if r.id = id then { r with pendingNotification := some pending } else r,
    fun r ↦ ?_, by simp [setPendingNotification]⟩
  simp only
  split_ifs
  · exact ⟨some pending, rfl⟩
  · exact Feedback.refl r

theorem stageFeedback_rows
    (feedback : ℕ → MergeRequestRow → Option PendingNotification)
    (queue : List (MergeRequestRow × ℕ)) (table : KeyedTable MergeRequestRow) :
    ∃ f : MergeRequestRow → MergeRequestRow, (∀ r, Feedback r (f r)) ∧
      (stageFeedback feedback queue table).rows = table.rows.map f ∧
      (stageFeedback feedback queue table).nextId = table.nextId := by
  induction queue generalizing table with
  | nil => exact ⟨id, Feedback.refl, by simp [stageFeedback], rfl⟩
  | cons entry queue ih =>
      rw [stageFeedback, List.foldl_cons]
      cases hfeedback : feedback entry.2 entry.1 with
      | none => exact ih table
      | some pending =>
          obtain ⟨f, hf, hrows, hnext⟩ := ih (setPendingNotification table entry.1.id pending)
          obtain ⟨set, hset, hsetRows⟩ := setPendingNotification_rows table entry.1.id pending
          refine ⟨f ∘ set, fun r ↦ (hset r).trans (hf _), hrows.trans ?_, hnext⟩
          rw [hsetRows, List.map_map]

theorem stageFeedback_evolves
    (feedback : ℕ → MergeRequestRow → Option PendingNotification)
    (queue : List (MergeRequestRow × ℕ)) (table : KeyedTable MergeRequestRow) :
    Evolves Feedback (fun _ ↦ False) table (stageFeedback feedback queue table) := by
  obtain ⟨f, hf, hrows, hnext⟩ := stageFeedback_rows feedback queue table
  exact Evolves.of_rows_eq_map hrows hnext (fun r ↦ (hf r).identity) hf

theorem ite_evolves {R : MergeRequestRow → MergeRequestRow → Prop} {N : MergeRequestRow → Prop}
    {t u v : KeyedTable MergeRequestRow} {b : Bool} (hv : Evolves R N t v)
    (hu : Evolves R N t u) : Evolves R N t (if b then u else v) := by
  cases b
  · exact hv
  · exact hu

theorem stageCompletionPositions_evolves (projectId : ℕ) (positions : List (ℕ × ℕ))
    (oldTotal : ℕ) (tokens : ℕ → Uuid) (db : Database) :
    Evolves Feedback (fun _ ↦ False) db.mergeRequests
      (QueueManager.stageCompletionPositions projectId positions oldTotal tokens
        db).mergeRequests :=
  stageFeedback_evolves _ _ _

theorem acknowledgeActiveAdmission_evolves {projectId mrIid : ℕ} {key : Option String} {now : ℤ}
    {table table' : KeyedTable MergeRequestRow}
    (h : acknowledgeActiveAdmission projectId mrIid key now table = .ok table') :
    Evolves Applied (fun _ ↦ False) table table' := by
  have hkeep : ∀ r, Applied r r := fun _ ↦ Or.inl rfl
  unfold acknowledgeActiveAdmission at h
  split at h
  · split at h
    · split at h
      · cases h
        exact Evolves.refl hkeep
      · split_ifs at h
        cases h
        exact Evolves.refl hkeep
      · simp only at h
        split_ifs at h
        · cases h
          refine Evolves.updateWhere hkeep fun r _ hr ↦ ?_
          simp only [Bool.and_eq_true, decide_eq_true_eq] at hr
          exact Or.inr ⟨_, _, hr.1.2, rfl⟩
        · cases h
          exact Evolves.refl hkeep
    · cases h
      exact Evolves.refl hkeep
  · cases h
    exact Evolves.refl hkeep

theorem updateHotfixStatus_evolves {qm : QueueManager} {projectId mrIid : ℕ} {isHotfix : Bool}
    {labels : List String} {expectedRevision : Option (ℕ × ℕ)} {notifyPositions : Bool}
    {admissionKey : Option String} {isAutomated : Option Bool} {now : ℤ} {tokens : ℕ → Uuid}
    {db db' : Database} {changed : Bool}
    (h : qm.updateHotfixStatus projectId mrIid isHotfix labels expectedRevision notifyPositions
      admissionKey isAutomated now tokens db = .ok (changed, db')) :
    Evolves Reclassified (fun _ ↦ False) db.mergeRequests db'.mergeRequests ∧
      db'.history = db.history := by
  unfold QueueManager.updateHotfixStatus at h
  obtain ⟨⟨hotfix, automated⟩, -, h⟩ := bind_eq_ok.mp h
  obtain ⟨table, hack, h⟩ := bind_eq_ok.mp h
  cases h
  refine ⟨?_, rfl⟩
  refine (Evolves.comp (T := Reclassified) (Evolves.updateWhere Reclassified.refl ?_)
    (acknowledgeActiveAdmission_evolves hack)
    (fun _ _ _ hab hbc ↦ hab.trans (.of_applied hbc)) (fun _ _ h _ ↦ h) fun _ h ↦ h).comp
      (S := Feedback) (N := fun _ ↦ False) ?_
      (fun _ _ _ hab hbc ↦ hab.trans (.of_feedback hbc)) (fun _ _ h _ ↦ h) fun _ h ↦ h
  · intro r _ _
    exact ⟨_, _, _, _, r.pendingNotification, r.requeueRequest, rfl, Or.inl rfl⟩
  · exact ite_evolves (Evolves.refl Feedback.refl) (stageFeedback_evolves _ _ _)

theorem executeUpdate_eq_ok {projectId : ℕ} {update : ActivationUpdate}
    {table table' : KeyedTable MergeRequestRow}
    (h : executeUpdate projectId table update = .ok table') :
    table' = table.updateWhere (update.selects projectId) update.apply := by
  unfold executeUpdate at h
  split at h <;> cases h
  rfl

theorem executeUpdates_evolves {projectId : ℕ} {updates : List ActivationUpdate}
    {table table' : KeyedTable MergeRequestRow}
    (h : updates.foldlM (executeUpdate projectId) table = .ok table') :
    Evolves Reclassified (fun _ ↦ False) table table' := by
  induction updates generalizing table with
  | nil =>
      cases h
      exact Evolves.refl Reclassified.refl
  | cons update updates ih =>
      rw [List.foldlM_cons] at h
      obtain ⟨between, hupdate, h⟩ := bind_eq_ok.mp h
      rw [executeUpdate_eq_ok hupdate] at h
      refine Evolves.comp (T := Reclassified) (Evolves.updateWhere Reclassified.refl ?_) (ih h)
        (fun _ _ _ ↦ Reclassified.trans) (fun _ _ h _ ↦ h) fun _ h ↦ h
      intro r _ _
      exact ⟨_, _, r.labels, _, r.pendingNotification, r.requeueRequest, rfl, Or.inl rfl⟩

theorem activateFrom_eq_ok {qm : QueueManager} {projectId : ℕ} {tokens : ℕ → Uuid}
    {planned db db' : Database} {summary : ActivationSummary}
    (h : qm.activateFrom projectId tokens planned db = .ok (summary, db')) :
    ∃ (updates : List ActivationUpdate) (feedback : _) (queue : _) (table : _),
      updates.foldlM (executeUpdate projectId) db.mergeRequests = .ok table ∧
      db' = { db with mergeRequests := stageFeedback feedback queue table } := by
  unfold QueueManager.activateFrom at h
  split at h
  · cases h
  · obtain ⟨table, hupdates, h⟩ := bind_eq_ok.mp h
    cases h
    exact ⟨_, _, _, table, hupdates, rfl⟩

theorem activatePriorities_evolves {qm : QueueManager} {projectId : ℕ} {tokens : ℕ → Uuid}
    {db db' : Database} {summary : ActivationSummary}
    (h : qm.activatePriorities projectId tokens db = .ok (summary, db')) :
    Evolves Reclassified (fun _ ↦ False) db.mergeRequests db'.mergeRequests ∧
      db'.history = db.history := by
  obtain ⟨updates, feedback, queue, table, hupdates, rfl⟩ := activateFrom_eq_ok h
  refine ⟨?_, rfl⟩
  exact Evolves.comp (S := Feedback) (N := fun _ ↦ False) (executeUpdates_evolves hupdates)
    (stageFeedback_evolves _ _ _) (fun _ _ _ hab hbc ↦ hab.trans (.of_feedback hbc))
    (fun _ _ h _ ↦ h) fun _ h ↦ h

/-! ## Calls that insert -/

theorem insertMr_evolves (db : Database) (params : RequeueParams) (isHotfix isAutomated : Bool)
    (queuedAt : ℤ) :
    Evolves Kept Fresh db.mergeRequests
      (insertMr db params isHotfix isAutomated queuedAt).mergeRequests := by
  apply Evolves.insertOrIgnore Kept.refl
  · exact fresh_insertedRow _ _ _ _ _
  · exact fun _ ↦ rfl

theorem mem_insertMr {db : Database} {params : RequeueParams} {isHotfix isAutomated : Bool}
    {queuedAt : ℤ} {r : MergeRequestRow} (hr : r ∈ db.mergeRequests.rows) :
    r ∈ (insertMr db params isHotfix isAutomated queuedAt).mergeRequests.rows := by
  unfold insertMr
  apply KeyedTable.mem_insertOrIgnore_of_mem
  · exact fun _ ↦ rfl
  · exact hr

theorem of_mem_insertMr {db : Database} {params : RequeueParams} {isHotfix isAutomated : Bool}
    {queuedAt : ℤ} {r : MergeRequestRow}
    (hr : r ∈ (insertMr db params isHotfix isAutomated queuedAt).mergeRequests.rows) :
    r ∈ db.mergeRequests.rows ∨
      r = insertedRow params isHotfix isAutomated queuedAt db.mergeRequests.nextId := by
  have hsource := @KeyedTable.mem_insertOrIgnore _ _ _ _
    (insertedRow params isHotfix isAutomated queuedAt) (fun _ ↦ rfl) db.mergeRequests r hr
  exact hsource.imp_right And.left

theorem addToQueue_evolves {qm : QueueManager} {projectId : ℕ} {mr : MergeRequest}
    {isHotfix : Bool} {now : ℤ} {db db' : Database} {item : Option QueueItem}
    (h : qm.addToQueue projectId mr isHotfix now db = .ok (item, db')) :
    Evolves Kept Fresh db.mergeRequests db'.mergeRequests ∧
      db'.history = db.history := by
  unfold QueueManager.addToQueue at h
  obtain ⟨⟨hotfix, automated⟩, -, h⟩ := bind_eq_ok.mp h
  have hdelete (p : MergeRequestRow → Bool) :
      Evolves Kept Fresh db.mergeRequests (db.mergeRequests.deleteWhere p) :=
    Evolves.deleteWhere fun _ _ ↦ rfl
  cases h
  cases hstale : (db.row projectId mr.iid).any
      fun row ↦ row.status.terminal && row.pendingCompletion.isNone with
  | true =>
      simp only [if_true, Bool.true_or]
      have hinsert := insertMr_evolves
        { db with
          mergeRequests :=
            db.mergeRequests.deleteWhere fun r ↦ r.iid = mr.iid && r.projectId = projectId }
      exact ⟨(hdelete _).comp (hinsert _ _ _ _) (fun _ _ _ ↦ Kept.trans)
        (fun _ _ ha hab ↦ hab.fresh ha) fun _ h ↦ h, rfl⟩
  | false =>
      simp only [Bool.false_eq_true, if_false, Bool.false_or]
      split
      · exact ⟨insertMr_evolves _ _ _ _ _, rfl⟩
      · exact ⟨Evolves.refl fun _ ↦ rfl, rfl⟩

/-! ## Calls that write a requeue request -/

theorem replaceRequeue_evolves {R : MergeRequestRow → MergeRequestRow → Prop}
    {projectId queueId : ℕ} {allowActive : Bool} {saved : Option Requeue} {pending : Requeue}
    {db db' : Database} {done : Bool} (hkeep : ∀ r, R r r)
    (hset : ∀ r, mayWriteRequeue projectId queueId allowActive r = true →
      r.requeueRequest = saved → R r { r with requeueRequest := some pending })
    (h : replaceRequeue projectId queueId allowActive saved pending db = .ok (done, db')) :
    Evolves R Fresh db.mergeRequests db'.mergeRequests ∧ db'.history = db.history := by
  unfold replaceRequeue at h
  simp only at h
  split at h
  · cases h
    refine ⟨?_, rfl⟩
    apply Evolves.updateWhere hkeep
    · intro r _ hr
      simp only [Bool.and_eq_true, decide_eq_true_eq] at hr
      exact hset r hr.1 hr.2
    · exact fun _ ↦ ⟨rfl, rfl⟩
  · cases h

theorem writeRequeue_evolves {projectId queueId : ℕ} {incoming : Incoming} {allowActive : Bool}
    {token : Uuid} {db db' : Database} {done : Bool}
    (h : writeRequeue projectId queueId incoming allowActive token db = .ok (done, db')) :
    Evolves
        (fun r r' ↦ r' = r ∨ (mayWriteRequeue projectId queueId allowActive r = true ∧
          ∃ token pending, writtenRequeue incoming r.requeueRequest token = some pending ∧
            r' = { r with requeueRequest := some pending }))
        Fresh db.mergeRequests db'.mergeRequests ∧
      db'.history = db.history := by
  unfold writeRequeue at h
  split at h
  · cases h
    exact ⟨Evolves.refl fun _ ↦ Or.inl rfl, rfl⟩
  · split at h
    · cases h
      exact ⟨Evolves.refl fun _ ↦ Or.inl rfl, rfl⟩
    · next pending hpending =>
        refine replaceRequeue_evolves (fun _ ↦ Or.inl rfl) (fun r hmay hsaved ↦ ?_) h
        exact Or.inr ⟨hmay, token, pending, hsaved ▸ hpending, rfl⟩

theorem refreshRequeueLabels_evolves {projectId queueId : ℕ} {labels : List String}
    {eventAt : Option ℤ} {precisionUs : ℤ} {allowActive : Bool} {db db' : Database} {done : Bool}
    (h : QueueManager.refreshRequeueLabels projectId queueId labels eventAt precisionUs
      allowActive db = .ok (done, db')) :
    Evolves
        (fun r r' ↦ r' = r ∨ (mayWriteRequeue projectId queueId allowActive r = true ∧
          ∃ saved pending, r.requeueRequest = some saved ∧
            refreshedRequeue saved labels { requestedAt := eventAt, precisionUs } =
              some pending ∧
            r' = { r with requeueRequest := some pending }))
        Fresh db.mergeRequests db'.mergeRequests ∧
      db'.history = db.history := by
  unfold QueueManager.refreshRequeueLabels at h
  split at h
  · cases h
    exact ⟨Evolves.refl fun _ ↦ Or.inl rfl, rfl⟩
  · split at h
    · cases h
      exact ⟨Evolves.refl fun _ ↦ Or.inl rfl, rfl⟩
    · split at h
      · cases h
        exact ⟨Evolves.refl fun _ ↦ Or.inl rfl, rfl⟩
      · next saved _ _ pending hpending =>
          refine replaceRequeue_evolves (fun _ ↦ Or.inl rfl) (fun r hmay hsaved ↦ ?_) h
          exact Or.inr ⟨hmay, saved, pending, hsaved, hpending, rfl⟩

/-! ## Calls that complete -/

theorem transferRequeue_eq_ok {qm : QueueManager} {projectId mrIid : ℕ}
    {payload : CompletionPayload} {requeue : Requeue} {now : ℤ} {token : Uuid}
    {db db' : Database}
    (h : qm.transferRequeue projectId mrIid payload requeue now token db = .ok db') :
    ∃ admission hotfix automated, requeue.admission = some admission ∧
      qm.classifyLabels projectId admission.params.labels admission.params.isHotfix =
        .ok (hotfix, automated) ∧
      db' =
        let db := insertMr db admission.params hotfix automated now
        { db with
          mergeRequests := db.mergeRequests.updateWhere
            (fun r ↦ r.projectId = projectId && r.iid = mrIid)
            fun r ↦
              { r with
                pendingNotification := some { token, status := .queued, oldPosition := 0 }
                ignoredLabelEvents :=
                  payload.labelEvents ++ (admissionReceipts requeue).map .admission } } := by
  unfold QueueManager.transferRequeue at h
  split at h
  · cases h
  · next admission hadmission =>
      obtain ⟨⟨hotfix, automated⟩, hclass, h⟩ := bind_eq_ok.mp h
      cases h
      exact ⟨admission, hotfix, automated, hadmission, hclass, rfl⟩

/-- What a call of `finalize_completion` that returns does. -/
theorem finalizeCompletion_eq_ok {qm : QueueManager} {projectId : ℕ} {item : QueueItem}
    {payload : CompletionPayload} {now : ℤ} {tokens : ℕ → Uuid} {db db' : Database} {done : Bool}
    (h : qm.finalizeCompletion projectId item payload now tokens db = .ok (done, db')) :
    (done = false ∧ db' = db) ∨
      (done = true ∧
        (∃ r ∈ db.mergeRequests.rows, r.projectId = projectId ∧ r.id = item.queueId ∧
          r.pendingCompletion = some payload ∧ r.requeueRequest = item.requeueRequest) ∧
        ∃ db₁,
          (((∀ requeue, item.requeueRequest = some requeue →
              requeueIsCancelled requeue payload.labelEvents = true) ∧
            db₁ = archived projectId item payload db) ∨
          ∃ requeue, item.requeueRequest = some requeue ∧
            requeueIsCancelled requeue payload.labelEvents = false ∧
            qm.transferRequeue projectId item.mrIid payload requeue now (tokens 0)
              (archived projectId item payload db) = .ok db₁) ∧
          db' = QueueManager.stageCompletionPositions projectId payload.request.positions
            payload.request.oldTotal tokens db₁) := by
  unfold QueueManager.finalizeCompletion at h
  simp only at h
  split at h
  · next hhit =>
      obtain ⟨r, hr, hrow⟩ := List.any_eq_true.mp hhit
      simp only [Bool.and_eq_true, decide_eq_true_eq] at hrow
      obtain ⟨⟨⟨hproject, hid⟩, hpending⟩, hrequeue⟩ := hrow
      have howned : ∃ r ∈ db.mergeRequests.rows, r.projectId = projectId ∧
          r.id = item.queueId ∧ r.pendingCompletion = some payload ∧
          r.requeueRequest = item.requeueRequest := ⟨r, hr, hproject, hid, hpending, hrequeue⟩
      split at h
      · next requeue heq =>
          split at h
          · next hcancelled =>
              cases h
              refine Or.inr ⟨rfl, howned, _, Or.inl ⟨fun other hother ↦ ?_, rfl⟩, rfl⟩
              cases heq.symm.trans hother
              exact hcancelled
          · next hlive =>
              obtain ⟨db₁, htransfer, h⟩ := bind_eq_ok.mp h
              cases h
              refine Or.inr ⟨rfl, howned, db₁, Or.inr ⟨requeue, heq, ?_, htransfer⟩, rfl⟩
              simpa using hlive
      · next heq =>
          cases h
          refine Or.inr ⟨rfl, howned, _, Or.inl ⟨fun other hother ↦ ?_, rfl⟩, rfl⟩
          cases heq.symm.trans hother
  · cases h
    exact Or.inl ⟨rfl, rfl⟩

/-- What follows the archival: at most a new row, and feedback. -/
theorem archived_evolves {qm : QueueManager} {projectId : ℕ} {item : QueueItem}
    {payload : CompletionPayload} {now : ℤ} {token : Uuid} {tokens : ℕ → Uuid}
    {db db₁ : Database}
    (h : db₁ = db ∨ ∃ requeue,
      qm.transferRequeue projectId item.mrIid payload requeue now token db = .ok db₁) :
    Evolves Noted Fresh db.mergeRequests
        (QueueManager.stageCompletionPositions projectId payload.request.positions
          payload.request.oldTotal tokens db₁).mergeRequests ∧
      db₁.history = db.history := by
  have hfirst : Evolves Noted Fresh db.mergeRequests db₁.mergeRequests ∧
      db₁.history = db.history := by
    rcases h with rfl | ⟨requeue, htransfer⟩
    · exact ⟨Evolves.refl Noted.refl, rfl⟩
    · obtain ⟨admission, hotfix, automated, -, -, rfl⟩ := transferRequeue_eq_ok htransfer
      have hinsert := insertMr_evolves db
      refine ⟨Evolves.comp (S := Noted) (N := Fresh)
        (hinsert admission.params hotfix automated now) ?_ ?_
        (fun _ _ ha hab ↦ hab.fresh ha) fun _ h ↦ h, rfl⟩
      · apply Evolves.updateWhere Noted.refl
        · exact fun r _ _ ↦ ⟨_, _, rfl⟩
        · exact fun _ ↦ ⟨rfl, rfl⟩
      · rintro a b c rfl hbc
        exact hbc
  exact ⟨hfirst.1.comp (stageCompletionPositions_evolves _ _ _ _ _)
    (fun _ _ _ hab hbc ↦ hab.trans (.of_feedback hbc)) (fun _ _ ha hab ↦ hab.fresh ha)
    fun _ h ↦ h.elim, hfirst.2⟩

theorem finalizeCompletion_evolves {qm : QueueManager} {projectId : ℕ} {item : QueueItem}
    {payload : CompletionPayload} {now : ℤ} {tokens : ℕ → Uuid} {db db' : Database} {done : Bool}
    (h : qm.finalizeCompletion projectId item payload now tokens db = .ok (done, db')) :
    Evolves Noted Fresh db.mergeRequests db'.mergeRequests := by
  have hdelete : Evolves Noted Fresh db.mergeRequests
      (archived projectId item payload db).mergeRequests :=
    Evolves.deleteWhere fun r _ ↦ Noted.refl r
  rcases finalizeCompletion_eq_ok h with ⟨-, rfl⟩ | ⟨-, -, db₁, hdb₁, rfl⟩
  · exact Evolves.refl Noted.refl
  · have hrest : db₁ = archived projectId item payload db ∨ ∃ requeue,
        qm.transferRequeue projectId item.mrIid payload requeue now (tokens 0)
          (archived projectId item payload db) = .ok db₁ :=
      hdb₁.imp And.right fun ⟨requeue, _, _, htransfer⟩ ↦ ⟨requeue, htransfer⟩
    exact hdelete.comp (archived_evolves hrest).1 (fun _ _ _ ↦ Noted.trans)
      (fun _ _ ha hab ↦ hab.fresh ha) fun _ h ↦ h

/-- What a call of `prepare_completion` does: it freezes the outcome of the row it
names, unless there is none or its outcome is frozen already. -/
theorem prepareCompletion_eq_ok {projectId mrIid : ℕ} {request : CompletionRequest} {now : ℤ}
    {db db' : Database} {answer : Option QueueItem}
    (h : QueueManager.prepareCompletion projectId mrIid request now db = .ok (answer, db')) :
    (db' = db ∧ answer = none ∧
      ∀ row ∈ db.row projectId mrIid, ∃ id ∈ request.queueId, row.id ≠ id) ∨
    (db' = db ∧ ∃ row ∈ db.row projectId mrIid, (∀ id ∈ request.queueId, row.id = id) ∧
      row.pendingCompletion.isSome = true ∧ answer = some (rowToQueueItem row)) ∨
    ∃ row ∈ db.row projectId mrIid, (∀ id ∈ request.queueId, row.id = id) ∧
      row.pendingCompletion = none ∧ db'.history = db.history ∧
      db'.mergeRequests.nextId = db.mergeRequests.nextId ∧
      db'.mergeRequests.rows = db.mergeRequests.rows.map
        (fun r ↦ if r.id = row.id then preparedRow request now r else r) ∧
      answer = some
        { rowToQueueItem row with
          pendingCompletion := some (completionPayload (rowToQueueItem row) request now)
          requeueRequest :=
            (completionAdmission (rowToQueueItem row) (finishedTime request.context now)).1
          state := request.state
          finishedAt := some (finishedTime request.context now) } := by
  unfold QueueManager.prepareCompletion at h
  split at h
  · next hrow =>
      cases h
      exact Or.inl ⟨rfl, rfl, by simp [hrow]⟩
  · next row hrow =>
      have hmem := KeyedTable.mem_of_byKey hrow
      simp only at h
      split at h
      · next hqueueId =>
          cases h
          refine Or.inl ⟨rfl, rfl, fun r hr ↦ ?_⟩
          cases hrow.symm.trans hr
          obtain ⟨id, hrequest, hne⟩ := (Option.any_eq_true _ _).mp hqueueId
          exact ⟨id, hrequest, of_decide_eq_true hne⟩
      · next hqueueId =>
          have hguard : ∀ id ∈ request.queueId, row.id = id := by
            intro id hid
            simpa [Option.mem_def.mp hid] using hqueueId
          split at h
          · next hsome =>
              cases h
              exact Or.inr (Or.inl ⟨rfl, row, hrow, hguard, hsome, rfl⟩)
          · next hnone =>
              split at h
              · cases h
                simp only [rowToQueueItem_pendingCompletion, Bool.not_eq_true,
                  Option.isSome_eq_false_iff, Option.isNone_iff_eq_none] at hnone
                refine Or.inr (Or.inr ⟨row, hrow, hguard, hnone, rfl, rfl, ?_, rfl⟩)
                refine List.map_congr_left fun r hr ↦ ?_
                by_cases hid : r.id = row.id
                · obtain rfl := db.mergeRequests.eq_of_rowId_eq hr hmem hid
                  simp [hnone]
                · simp [hid]
              · cases h

theorem prepareCompletion_returns (projectId mrIid : ℕ) (request : CompletionRequest) (now : ℤ)
    (db : Database) :
    ∃ out, QueueManager.prepareCompletion projectId mrIid request now db = .ok out := by
  unfold QueueManager.prepareCompletion
  split
  · exact ⟨_, rfl⟩
  · next row hrow =>
      simp only
      split
      · exact ⟨_, rfl⟩
      · split
        · exact ⟨_, rfl⟩
        · next hnone =>
            have hhit : (db.mergeRequests.rows.any fun r ↦
                decide (r.id = row.id) && r.pendingCompletion.isNone &&
                  decide (r.requeueRequest = row.requeueRequest)) = true := by
              refine List.any_eq_true.mpr ⟨row, KeyedTable.mem_of_byKey hrow, ?_⟩
              simpa using hnone
            exact ⟨_, if_pos hhit⟩

/-- The outcome of an open row is frozen. -/
theorem prepareCompletion_freezes {projectId mrIid : ℕ} {request : CompletionRequest}
    {db : Database} {row : MergeRequestRow} (now : ℤ) (hrow : db.row projectId mrIid = some row)
    (hopen : row.pendingCompletion = none) (hguard : ∀ id ∈ request.queueId, id = row.id) :
    ∃ db',
      QueueManager.prepareCompletion projectId mrIid request now db =
        .ok (some
          { rowToQueueItem row with
            pendingCompletion := some (completionPayload (rowToQueueItem row) request now)
            requeueRequest :=
              (completionAdmission (rowToQueueItem row) (finishedTime request.context now)).1
            state := request.state
            finishedAt := some (finishedTime request.context now) }, db') ∧
      db'.mergeRequests.nextId = db.mergeRequests.nextId ∧
      db'.mergeRequests.rows = db.mergeRequests.rows.map
        (fun r ↦ if r.id = row.id then preparedRow request now r else r) := by
  obtain ⟨⟨answer, db'⟩, hout⟩ := prepareCompletion_returns projectId mrIid request now db
  rcases prepareCompletion_eq_ok hout with ⟨-, -, hother⟩ | ⟨-, r, hr, -, hsome, -⟩ |
    ⟨r, hr, -, -, -, hnext, hrows, hanswer⟩
  · obtain ⟨id, hid, hne⟩ := hother row hrow
    exact absurd (hguard id hid).symm hne
  · cases hrow.symm.trans hr
    rw [hopen] at hsome
    cases hsome
  · cases hrow.symm.trans hr
    exact ⟨db', by rw [hout, hanswer], hnext, hrows⟩

/-- Freezing leaves the prepared row as the row of its merge request. -/
theorem row_of_prepared {projectId mrIid : ℕ} {request : CompletionRequest} {now : ℤ}
    {db db' : Database} {row : MergeRequestRow} (hrow : db.row projectId mrIid = some row)
    (hrows : db'.mergeRequests.rows = db.mergeRequests.rows.map
      (fun r ↦ if r.id = row.id then preparedRow request now r else r)) :
    db'.row projectId mrIid = some (preparedRow request now row) := by
  obtain ⟨hmem, hkey⟩ := KeyedTable.byKey_eq_some_iff.mp hrow
  refine KeyedTable.byKey_eq_some_iff.mpr ⟨?_, hkey⟩
  rw [hrows]
  exact List.mem_map.mpr ⟨row, hmem, if_pos rfl⟩

theorem prepareCompletion_evolves {projectId mrIid : ℕ} {request : CompletionRequest} {now : ℤ}
    {db db' : Database} {answer : Option QueueItem}
    (h : QueueManager.prepareCompletion projectId mrIid request now db = .ok (answer, db')) :
    Evolves (RowChange now (.prepareCompletion projectId mrIid request)) Fresh db.mergeRequests
        db'.mergeRequests ∧
      db'.history = db.history := by
  rcases prepareCompletion_eq_ok h with
    ⟨rfl, -⟩ | ⟨rfl, -⟩ | ⟨row, hrow, hguard, hnone, hhistory, hnext, hrows, -⟩
  · exact ⟨Evolves.refl (RowChange.refl now _), rfl⟩
  · exact ⟨Evolves.refl (RowChange.refl now _), rfl⟩
  · obtain ⟨hmem, hkey⟩ := KeyedTable.byKey_eq_some_iff.mp hrow
    simp only [key_mergeRequestRow, Prod.mk.injEq] at hkey
    refine ⟨⟨hnext.ge, fun r' hr' ↦ Or.inl ?_⟩, hhistory⟩
    obtain ⟨r, hr, rfl⟩ := List.mem_map.mp (hrows ▸ hr')
    refine ⟨r, hr, ?_⟩
    by_cases hid : r.id = row.id
    · obtain rfl := db.mergeRequests.eq_of_rowId_eq hr hmem hid
      rw [if_pos rfl]
      exact ⟨rfl, rfl, Or.inr ⟨hkey.1, hkey.2, hguard, hnone, rfl⟩⟩
    · rw [if_neg hid]
      exact ⟨rfl, rfl, Or.inl rfl⟩

/-! ## Writes of a state and ends without a completion -/

theorem updateMrState_eq_ok {projectId mrIid : ℕ} {state : Status} {extra : QueueManager.Extra}
    {now : ℤ} {db db' : Database} {answer : Bool}
    (h : QueueManager.updateMrState projectId mrIid state extra now db = .ok (answer, db')) :
    answer = true ∧ db' = { db with
      mergeRequests := db.mergeRequests.updateWhere
        (fun r ↦ r.iid = mrIid && r.projectId = projectId && r.pendingCompletion.isNone)
        (updatedRow state extra now) } := by
  unfold QueueManager.updateMrState at h
  simp only at h
  split at h <;> cases h
  exact ⟨rfl, rfl⟩

/-- A row that is completed is found, deleted and recorded. -/
theorem completeMr_eq {projectId mrIid : ℕ} {outcome : Outcome} {expectedQueueId : Option ℕ}
    {now : ℤ} {db db' : Database} {answer : Bool}
    (h : QueueManager.completeMr projectId mrIid outcome expectedQueueId now db =
      (answer, db')) :
    db' = db ∨ ∃ hit row, hit = (fun r : MergeRequestRow ↦
        r.projectId = projectId && r.iid = mrIid && r.pendingCompletion.isNone &&
          expectedQueueId.all fun id ↦ r.id = id) ∧
      db.mergeRequests.rows.find? hit = some row ∧
      db' = insertHistory { db with mergeRequests := db.mergeRequests.deleteWhere hit }
        (historyParams (rowToQueueItem row) outcome now) := by
  unfold QueueManager.completeMr at h
  simp only at h
  split at h
  · cases h
    exact Or.inl rfl
  · next row hfind =>
      cases h
      exact Or.inr ⟨_, row, rfl, hfind, rfl⟩

/-! ## All calls -/

/-- Every call that returns leaves rows that `RowChange` allows, and rows it inserted. -/
theorem exec_evolves {qm : QueueManager} {now : ℤ} {tokens : ℕ → Uuid} {op : QueueOp}
    {db db' : Database} {answer : op.Answer} (h : op.exec qm now tokens db = .ok (answer, db')) :
    Evolves (RowChange now op) Fresh db.mergeRequests db'.mergeRequests := by
  cases op with
  | addToQueue projectId mr isHotfix => exact (addToQueue_evolves h).1
  | removeFromQueue projectId mrIid =>
      cases h
      apply Evolves.updateWhere (RowChange.refl now _)
      · intro r _ hr
        simp only [Bool.and_eq_true, decide_eq_true_eq] at hr
        exact Or.inr ⟨hr.1.2, hr.1.1, rfl⟩
      · exact fun _ ↦ ⟨rfl, rfl⟩
  | getQueueItem | getActiveQueue | getPendingCompletions | getStaleMrs | getMrState =>
      cases h
      exact Evolves.refl Kept.refl
  | updateMrState projectId mrIid state extra =>
      obtain ⟨-, rfl⟩ := updateMrState_eq_ok h
      apply Evolves.updateWhere (RowChange.refl now _)
      · intro r _ hr
        simp only [Bool.and_eq_true, decide_eq_true_eq, Option.isNone_iff_eq_none] at hr
        exact Or.inr ⟨hr.1.2, hr.1.1, hr.2, rfl⟩
      · exact fun _ ↦ ⟨rfl, rfl⟩
  | markStaleWarningSent projectId mrIid =>
      cases h
      apply Evolves.updateWhere (RowChange.refl now _)
      · intro r _ hr
        simp only [Bool.and_eq_true, decide_eq_true_eq] at hr
        exact Or.inr ⟨hr.2, hr.1, rfl⟩
      · exact fun _ ↦ ⟨rfl, rfl⟩
  | clearPendingNotification projectId mrIid pending =>
      cases h
      apply Evolves.updateWhere Feedback.refl
      · exact fun r _ _ ↦ ⟨none, rfl⟩
      · exact fun _ ↦ ⟨rfl, rfl⟩
  | stageCompletionPositions projectId positions oldTotal =>
      cases h
      exact (stageCompletionPositions_evolves _ _ _ _ _).mono (fun _ _ h ↦ h) fun _ h ↦ h.elim
  | updateHotfixStatus =>
      exact (updateHotfixStatus_evolves h).1.mono (fun _ _ h ↦ h) fun _ h ↦ h.elim
  | activatePriorities =>
      exact (activatePriorities_evolves h).1.mono (fun _ _ h ↦ h) fun _ h ↦ h.elim
  | deferRequeue => exact (writeRequeue_evolves h).1
  | cancelRequeue => exact (writeRequeue_evolves h).1
  | refreshRequeueLabels => exact (refreshRequeueLabels_evolves h).1
  | prepareCompletion => exact (prepareCompletion_evolves h).1
  | saveCompletionProgress projectId queueId payload =>
      cases h
      apply Evolves.updateWhere (RowChange.refl now _)
      · intro r _ hr
        simp only [Bool.and_eq_true, decide_eq_true_eq] at hr
        exact Or.inr ⟨hr.1.1, hr.1.2, hr.2, rfl⟩
      · exact fun _ ↦ ⟨rfl, rfl⟩
  | finalizeCompletion => exact finalizeCompletion_evolves h
  | completeMr projectId mrIid outcome expectedQueueId =>
      rcases completeMr_eq (Except.ok.inj h) with rfl | ⟨hit, row, -, -, rfl⟩
      · exact Evolves.refl Kept.refl
      · exact Evolves.deleteWhere fun r _ ↦ Kept.refl r
  | cleanupOldEntries projectId cutoff =>
      cases h
      exact Evolves.deleteWhere fun r _ ↦ Kept.refl r

/-! ## Rows that a call keeps -/

open KeyedTable (HasId)

/-- The row with the identity `n` is there, and the call does not delete it. -/
structure Spares (op : QueueOp) (table : KeyedTable MergeRequestRow) (n : ℕ) : Prop where
  hasId : table.HasId n
  kept : ∀ r ∈ table.rows, r.id = n → ¬op.Deletes r

theorem Spares.of_mem {op : QueueOp} {table : KeyedTable MergeRequestRow} {r : MergeRequestRow}
    (hr : r ∈ table.rows) (h : ¬op.Deletes r) : op.Spares table r.id := by
  refine ⟨KeyedTable.hasId_of_mem hr, fun s hs heq ↦ ?_⟩
  rwa [table.eq_of_rowId_eq hs hr heq]

theorem stageFeedback_hasId {feedback : ℕ → MergeRequestRow → Option PendingNotification}
    {queue : List (MergeRequestRow × ℕ)} {table : KeyedTable MergeRequestRow} {n : ℕ}
    (h : table.HasId n) : (stageFeedback feedback queue table).HasId n := by
  obtain ⟨f, hf, hrows, -⟩ := stageFeedback_rows feedback queue table
  exact h.of_rows_eq_map hrows fun r ↦ (hf r).identity.1

theorem executeUpdates_hasId {projectId : ℕ} {updates : List ActivationUpdate}
    {table table' : KeyedTable MergeRequestRow} {n : ℕ}
    (h : updates.foldlM (executeUpdate projectId) table = .ok table') (hn : table.HasId n) :
    table'.HasId n := by
  induction updates generalizing table with
  | nil =>
      cases h
      exact hn
  | cons update updates ih =>
      rw [List.foldlM_cons] at h
      obtain ⟨between, hupdate, h⟩ := bind_eq_ok.mp h
      rw [executeUpdate_eq_ok hupdate] at h
      exact ih h hn.updateWhere

theorem ite_hasId {t u : KeyedTable MergeRequestRow} {b : Bool} {n : ℕ} (ht : t.HasId n)
    (hu : u.HasId n) : (if b then u else t).HasId n := by
  cases b
  · exact ht
  · exact hu

theorem acknowledgeActiveAdmission_hasId {projectId mrIid : ℕ} {key : Option String} {now : ℤ}
    {table table' : KeyedTable MergeRequestRow} {n : ℕ}
    (h : acknowledgeActiveAdmission projectId mrIid key now table = .ok table')
    (hn : table.HasId n) : table'.HasId n := by
  unfold acknowledgeActiveAdmission at h
  split at h
  · split at h
    · split at h
      · cases h
        exact hn
      · split_ifs at h
        cases h
        exact hn
      · simp only at h
        split_ifs at h
        · cases h
          exact hn.updateWhere
        · cases h
          exact hn
    · cases h
      exact hn
  · cases h
    exact hn

theorem updateHotfixStatus_hasId {qm : QueueManager} {projectId mrIid : ℕ} {isHotfix : Bool}
    {labels : List String} {expectedRevision : Option (ℕ × ℕ)} {notifyPositions : Bool}
    {admissionKey : Option String} {isAutomated : Option Bool} {now : ℤ} {tokens : ℕ → Uuid}
    {db db' : Database} {changed : Bool} {n : ℕ}
    (h : qm.updateHotfixStatus projectId mrIid isHotfix labels expectedRevision notifyPositions
      admissionKey isAutomated now tokens db = .ok (changed, db'))
    (hn : db.mergeRequests.HasId n) : db'.mergeRequests.HasId n := by
  unfold QueueManager.updateHotfixStatus at h
  obtain ⟨⟨hotfix, automated⟩, -, h⟩ := bind_eq_ok.mp h
  obtain ⟨table, hack, h⟩ := bind_eq_ok.mp h
  cases h
  have htable : table.HasId n := acknowledgeActiveAdmission_hasId hack hn.updateWhere
  exact ite_hasId htable (stageFeedback_hasId htable)

theorem writeRequeue_hasId {projectId queueId : ℕ} {incoming : Incoming} {allowActive : Bool}
    {token : Uuid} {db db' : Database} {done : Bool} {n : ℕ}
    (h : writeRequeue projectId queueId incoming allowActive token db = .ok (done, db'))
    (hn : db.mergeRequests.HasId n) : db'.mergeRequests.HasId n := by
  unfold writeRequeue replaceRequeue at h
  split at h
  · cases h
    exact hn
  · split at h
    · cases h
      exact hn
    · simp only at h
      split at h
      · cases h
        apply hn.updateWhere
        exact fun _ ↦ ⟨rfl, rfl⟩
      · cases h

theorem refreshRequeueLabels_hasId {projectId queueId : ℕ} {labels : List String}
    {eventAt : Option ℤ} {precisionUs : ℤ} {allowActive : Bool} {db db' : Database} {done : Bool}
    {n : ℕ}
    (h : QueueManager.refreshRequeueLabels projectId queueId labels eventAt precisionUs
      allowActive db = .ok (done, db'))
    (hn : db.mergeRequests.HasId n) : db'.mergeRequests.HasId n := by
  unfold QueueManager.refreshRequeueLabels replaceRequeue at h
  split at h
  · cases h
    exact hn
  · split at h
    · cases h
      exact hn
    · split at h
      · cases h
        exact hn
      · simp only at h
        split at h
        · cases h
          apply hn.updateWhere
          exact fun _ ↦ ⟨rfl, rfl⟩
        · cases h

theorem addToQueue_hasId {qm : QueueManager} {projectId : ℕ} {mr : MergeRequest}
    {isHotfix : Bool} {now : ℤ} {db db' : Database} {item : Option QueueItem} {n : ℕ}
    (h : qm.addToQueue projectId mr isHotfix now db = .ok (item, db'))
    (hn : db.mergeRequests.HasId n)
    (hkeep : ∀ r ∈ db.mergeRequests.rows, r.id = n →
      ¬(r.projectId = projectId ∧ r.iid = mr.iid ∧ r.pendingCompletion = none)) :
    db'.mergeRequests.HasId n := by
  unfold QueueManager.addToQueue at h
  obtain ⟨⟨hotfix, automated⟩, -, h⟩ := bind_eq_ok.mp h
  cases h
  cases hstale : (db.row projectId mr.iid).any
      fun row ↦ row.status.terminal && row.pendingCompletion.isNone with
  | true =>
      simp only [if_true, Bool.true_or]
      obtain ⟨row, hrow, hterminal⟩ := (Option.any_eq_true _ _).mp hstale
      simp only [Bool.and_eq_true, Option.isNone_iff_eq_none] at hterminal
      apply HasId.insertOrIgnore
      · exact fun _ ↦ rfl
      refine hn.deleteWhere fun r hr hid ↦ ?_
      by_contra hhit
      simp only [Bool.and_eq_false_iff, decide_eq_false_iff_not, not_or, not_not] at hhit
      obtain ⟨hmem, hkey⟩ := KeyedTable.byKey_eq_some_iff.mp hrow
      obtain rfl : r = row := by
        refine db.mergeRequests.eq_of_key_eq hr hmem ?_
        rw [hkey, key_mergeRequestRow, hhit.1, hhit.2]
      exact hkeep r hr hid ⟨hhit.2, hhit.1, hterminal.2⟩
  | false =>
      simp only [Bool.false_eq_true, if_false, Bool.false_or]
      split
      · apply HasId.insertOrIgnore
        · exact fun _ ↦ rfl
        · exact hn
      · exact hn

theorem finalizeCompletion_hasId {qm : QueueManager} {projectId : ℕ} {item : QueueItem}
    {payload : CompletionPayload} {now : ℤ} {tokens : ℕ → Uuid} {db db' : Database} {done : Bool}
    {n : ℕ}
    (h : qm.finalizeCompletion projectId item payload now tokens db = .ok (done, db'))
    (hn : db.mergeRequests.HasId n)
    (hkeep : ∀ r ∈ db.mergeRequests.rows, r.id = n →
      ¬(r.projectId = projectId ∧ r.id = item.queueId ∧ r.pendingCompletion = some payload)) :
    db'.mergeRequests.HasId n := by
  have hdelete : (archived projectId item payload db).mergeRequests.HasId n := by
    refine hn.deleteWhere fun r hr hid ↦ ?_
    by_contra hhit
    simp only [Bool.and_eq_false_iff, decide_eq_false_iff_not, not_or, not_not] at hhit
    exact hkeep r hr hid ⟨hhit.1.1.1, hhit.1.1.2, hhit.1.2⟩
  rcases finalizeCompletion_eq_ok h with ⟨-, rfl⟩ | ⟨-, -, db₁, hdb₁, rfl⟩
  · exact hn
  · refine stageFeedback_hasId ?_
    rcases hdb₁ with ⟨-, rfl⟩ | ⟨requeue, -, -, htransfer⟩
    · exact hdelete
    · obtain ⟨admission, hotfix, automated, -, -, rfl⟩ := transferRequeue_eq_ok htransfer
      apply HasId.updateWhere
      · exact fun _ ↦ ⟨rfl, rfl⟩
      · apply HasId.insertOrIgnore
        · exact fun _ ↦ rfl
        · exact hdelete

/-- A row that a call may not delete is still there after it. -/
theorem exec_hasId {qm : QueueManager} {now : ℤ} {tokens : ℕ → Uuid} {op : QueueOp}
    {db db' : Database} {answer : op.Answer} {n : ℕ}
    (h : op.exec qm now tokens db = .ok (answer, db')) (hspares : op.Spares db.mergeRequests n) :
    db'.mergeRequests.HasId n := by
  obtain ⟨hn, hkeep⟩ := hspares
  cases op with
  | addToQueue => exact addToQueue_hasId h hn hkeep
  | getQueueItem | getActiveQueue | getPendingCompletions | getStaleMrs | getMrState =>
      cases h
      exact hn
  | removeFromQueue | markStaleWarningSent | clearPendingNotification | saveCompletionProgress =>
      cases h
      apply hn.updateWhere
      exact fun _ ↦ ⟨rfl, rfl⟩
  | updateMrState =>
      obtain ⟨-, rfl⟩ := updateMrState_eq_ok h
      apply hn.updateWhere
      exact fun _ ↦ ⟨rfl, rfl⟩
  | stageCompletionPositions =>
      cases h
      exact stageFeedback_hasId hn
  | updateHotfixStatus => exact updateHotfixStatus_hasId h hn
  | activatePriorities =>
      obtain ⟨updates, feedback, queue, table, hupdates, rfl⟩ := activateFrom_eq_ok h
      exact stageFeedback_hasId (executeUpdates_hasId hupdates hn)
  | deferRequeue | cancelRequeue => exact writeRequeue_hasId h hn
  | refreshRequeueLabels => exact refreshRequeueLabels_hasId h hn
  | prepareCompletion =>
      rcases prepareCompletion_eq_ok h with
        ⟨rfl, -⟩ | ⟨rfl, -⟩ | ⟨row, -, -, -, -, -, hrows, -⟩
      · exact hn
      · exact hn
      · refine hn.of_rows_eq_map hrows fun r ↦ ?_
        split_ifs <;> rfl
  | finalizeCompletion => exact finalizeCompletion_hasId h hn hkeep
  | completeMr projectId mrIid outcome expectedQueueId =>
      rcases completeMr_eq (Except.ok.inj h) with rfl | ⟨hit, row, rfl, -, rfl⟩
      · exact hn
      · refine hn.deleteWhere fun r hr hid ↦ ?_
        by_contra hhit
        simp only [Bool.and_eq_false_iff, decide_eq_false_iff_not, not_or, not_not,
          Bool.not_eq_false, Option.isNone_iff_eq_none, Option.all_eq_true,
          decide_eq_true_eq] at hhit
        exact hkeep r hr hid ⟨hhit.1.1.1, hhit.1.1.2, hhit.1.2, hhit.2⟩
  | cleanupOldEntries projectId cutoff =>
      cases h
      refine hn.deleteWhere fun r hr hid ↦ ?_
      by_contra hhit
      simp only [Bool.and_eq_false_iff, decide_eq_false_iff_not, not_or, not_not,
        Bool.not_eq_false, Option.isNone_iff_eq_none] at hhit
      exact hkeep r hr hid ⟨hhit.1.2, hhit.2⟩

/-- What a call does to a row that it may not delete. -/
theorem exec_row {qm : QueueManager} {now : ℤ} {tokens : ℕ → Uuid} {op : QueueOp}
    {db db' : Database} {answer : op.Answer} {r : MergeRequestRow}
    (h : op.exec qm now tokens db = .ok (answer, db')) (hr : r ∈ db.mergeRequests.rows)
    (hkeep : ¬op.Deletes r) :
    ∃ r' ∈ db'.mergeRequests.rows, r'.id = r.id ∧ r'.projectId = r.projectId ∧ r'.iid = r.iid ∧
      RowChange now op r r' := by
  have hid : db'.mergeRequests.HasId r.id := exec_hasId h (.of_mem hr hkeep)
  obtain ⟨r', hr', hid', hkey, hchange⟩ := (exec_evolves h).of_hasId hr hid
  simp only [key_mergeRequestRow, Prod.mk.injEq] at hkey
  exact ⟨r', hr', hid', hkey.1, hkey.2, hchange⟩

/-- A call changes the completion of a row only by saving progress or by freezing it. -/
theorem pendingCompletion_of_rowChange {now : ℤ} {op : QueueOp} {r r' : MergeRequestRow}
    (h : RowChange now op r r') :
    r'.pendingCompletion = r.pendingCompletion ∨
    (∃ projectId payload, op = .saveCompletionProgress projectId r.id payload ∧
      r.pendingCompletion.isSome = true ∧ r'.pendingCompletion = some payload) ∨
    ∃ projectId mrIid request, op = .prepareCompletion projectId mrIid request ∧
      r.pendingCompletion = none ∧ r'.pendingCompletion.isSome = true := by
  cases op with
  | saveCompletionProgress projectId queueId payload =>
      rcases h with rfl | ⟨-, rfl, hsome, rfl⟩
      · exact Or.inl rfl
      · exact Or.inr (Or.inl ⟨projectId, payload, rfl, hsome, rfl⟩)
  | prepareCompletion projectId mrIid request =>
      rcases h with rfl | ⟨-, -, -, hnone, rfl⟩
      · exact Or.inl rfl
      · exact Or.inr (Or.inr ⟨projectId, mrIid, request, rfl, hnone, rfl⟩)
  | removeFromQueue | markStaleWarningSent =>
      rcases h with rfl | ⟨-, -, rfl⟩ <;> exact Or.inl rfl
  | updateMrState =>
      rcases h with rfl | ⟨-, -, -, rfl⟩ <;> exact Or.inl rfl
  | clearPendingNotification | stageCompletionPositions =>
      obtain ⟨note, rfl⟩ := h
      exact Or.inl rfl
  | finalizeCompletion =>
      obtain ⟨note, ignored, rfl⟩ := h
      exact Or.inl rfl
  | updateHotfixStatus | activatePriorities =>
      obtain ⟨_, _, _, _, _, _, rfl, -⟩ := h
      exact Or.inl rfl
  | deferRequeue | cancelRequeue =>
      rcases h with rfl | ⟨-, _, _, -, rfl⟩ <;> exact Or.inl rfl
  | refreshRequeueLabels =>
      rcases h with rfl | ⟨-, _, _, -, -, rfl⟩ <;> exact Or.inl rfl
  | addToQueue | getQueueItem | getActiveQueue | getPendingCompletions | getStaleMrs | getMrState
  | completeMr | cleanupOldEntries =>
      cases h
      exact Or.inl rfl

/-- A completion that is finished takes its row away and archives its frozen outcome. -/
theorem finalizeCompletion_done {qm : QueueManager} {projectId : ℕ} {item : QueueItem}
    {payload : CompletionPayload} {now : ℤ} {tokens : ℕ → Uuid} {db db' : Database}
    (h : qm.finalizeCompletion projectId item payload now tokens db = .ok (true, db')) :
    ¬db'.mergeRequests.HasId item.queueId ∧
      db'.history = (insertHistory db payload.history).history ∧
      ∃ r ∈ db.mergeRequests.rows, r.projectId = projectId ∧ r.id = item.queueId ∧
        r.pendingCompletion = some payload ∧ r.requeueRequest = item.requeueRequest := by
  rcases finalizeCompletion_eq_ok h with ⟨hfalse, -⟩ | ⟨-, howned, db₁, hdb₁, rfl⟩
  · cases hfalse
  · have hrest : db₁ = archived projectId item payload db ∨ ∃ requeue,
        qm.transferRequeue projectId item.mrIid payload requeue now (tokens 0)
          (archived projectId item payload db) = .ok db₁ :=
      hdb₁.imp And.right fun ⟨requeue, _, _, htransfer⟩ ↦ ⟨requeue, htransfer⟩
    have hafter := @archived_evolves qm projectId item payload now (tokens 0) tokens _ db₁ hrest
    obtain ⟨hevolves, hhistory⟩ := hafter
    refine ⟨fun hid ↦ ?_, hhistory, howned⟩
    obtain ⟨r, hr, hproject, hrid, hpending, hrequeue⟩ := howned
    have hlt : item.queueId < (archived projectId item payload db).mergeRequests.nextId :=
      hrid ▸ db.mergeRequests.below r hr
    obtain ⟨s, hs, hsid⟩ := hevolves.hasId hlt hid
    obtain ⟨hmem, hkept⟩ := KeyedTable.mem_deleteWhere.mp hs
    obtain rfl := db.mergeRequests.eq_of_rowId_eq hmem hr (hsid.trans hrid.symm)
    simp [hproject, hrid, hpending, hrequeue] at hkept

/-- Another row than the finished one only gets feedback, unless it has the key
under which the finished one was read. -/
theorem finalizeCompletion_feedback {qm : QueueManager} {projectId : ℕ} {item : QueueItem}
    {payload : CompletionPayload} {now : ℤ} {tokens : ℕ → Uuid} {db db' : Database} {done : Bool}
    {r : MergeRequestRow}
    (h : qm.finalizeCompletion projectId item payload now tokens db = .ok (done, db'))
    (hr : r ∈ db.mergeRequests.rows) (hid : r.id ≠ item.queueId)
    (hkey : ¬(r.projectId = projectId ∧ r.iid = item.mrIid)) :
    ∃ r' ∈ db'.mergeRequests.rows, Feedback r r' := by
  have hdelete : r ∈ (archived projectId item payload db).mergeRequests.rows :=
    KeyedTable.mem_deleteWhere.mpr ⟨hr, by simp [hid]⟩
  rcases finalizeCompletion_eq_ok h with ⟨-, rfl⟩ | ⟨-, -, db₁, hdb₁, rfl⟩
  · exact ⟨r, hr, Feedback.refl r⟩
  · have hfirst : r ∈ db₁.mergeRequests.rows := by
      rcases hdb₁ with ⟨-, rfl⟩ | ⟨requeue, -, -, htransfer⟩
      · exact hdelete
      · obtain ⟨admission, hotfix, automated, -, -, rfl⟩ := transferRequeue_eq_ok htransfer
        refine List.mem_map.mpr ⟨r, ?_, if_neg (by simpa using hkey)⟩
        exact mem_insertMr hdelete
    obtain ⟨f, hf, hrows, -⟩ := stageFeedback_rows
      (completionFeedback payload.request.positions payload.request.oldTotal
        (selectActiveQueue db₁ projectId).length tokens)
      ((selectActiveQueue db₁ projectId).zipIdx 1) db₁.mergeRequests
    refine ⟨f r, ?_, hf r⟩
    rw [QueueManager.stageCompletionPositions]
    simp only [hrows]
    exact List.mem_map_of_mem hfirst

/-- Only the completing calls write the history. -/
theorem exec_history {qm : QueueManager} {now : ℤ} {tokens : ℕ → Uuid} {op : QueueOp}
    {db db' : Database} {answer : op.Answer} (h : op.exec qm now tokens db = .ok (answer, db'))
    (hop : op.completing = false) : db'.history = db.history := by
  cases op with
  | addToQueue => exact (addToQueue_evolves h).2
  | updateMrState =>
      obtain ⟨-, rfl⟩ := updateMrState_eq_ok h
      rfl
  | updateHotfixStatus => exact (updateHotfixStatus_evolves h).2
  | activatePriorities => exact (activatePriorities_evolves h).2
  | deferRequeue => exact (writeRequeue_evolves h).2
  | cancelRequeue => exact (writeRequeue_evolves h).2
  | refreshRequeueLabels => exact (refreshRequeueLabels_evolves h).2
  | prepareCompletion => exact (prepareCompletion_evolves h).2
  | finalizeCompletion | completeMr => cases hop
  | removeFromQueue | getQueueItem | getActiveQueue | getPendingCompletions | getStaleMrs
  | getMrState | markStaleWarningSent | clearPendingNotification | stageCompletionPositions
  | saveCompletionProgress | cleanupOldEntries =>
      cases h
      rfl

/-- A call that writes the history takes a row away. -/
theorem exec_history_eq {qm : QueueManager} {now : ℤ} {tokens : ℕ → Uuid} {op : QueueOp}
    {db db' : Database} {answer : op.Answer}
    (h : op.exec qm now tokens db = .ok (answer, db')) :
    db'.history = db.history ∨
      ∃ r ∈ db.mergeRequests.rows, ¬db'.mergeRequests.HasId r.id := by
  cases op with
  | finalizeCompletion projectId item payload =>
      change qm.finalizeCompletion projectId item payload now tokens db = .ok (answer, db') at h
      cases answer with
      | false =>
          rcases finalizeCompletion_eq_ok h with ⟨-, rfl⟩ | ⟨htrue, -⟩
          · exact Or.inl rfl
          · cases htrue
      | true =>
          obtain ⟨hgone, -, r, hr, -, hid, -⟩ := finalizeCompletion_done h
          exact Or.inr ⟨r, hr, hid ▸ hgone⟩
  | completeMr projectId mrIid outcome expectedQueueId =>
      rcases completeMr_eq (Except.ok.inj h) with rfl | ⟨hit, row, -, hfind, rfl⟩
      · exact Or.inl rfl
      · have hhit := List.find?_some hfind
        refine Or.inr ⟨row, List.mem_of_find?_eq_some hfind, ?_⟩
        rintro ⟨r, hr, hid⟩
        obtain ⟨hmem, hkept⟩ := KeyedTable.mem_deleteWhere.mp hr
        obtain rfl := db.mergeRequests.eq_of_rowId_eq hmem (List.mem_of_find?_eq_some hfind) hid
        rw [hhit] at hkept
        cases hkept
  | _ => exact Or.inl (exec_history h rfl)

end QueueOp

end MergeQueue
