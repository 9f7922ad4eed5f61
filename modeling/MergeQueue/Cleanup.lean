import Mathlib.Data.List.Induction
import MergeQueue.PriorityOrder

/-!
# The cleanup of finished rows

A cleanup looks at the finish time of a row and not at its status.  It spares the
active rows as long as none of them has a finish time: a write of an active status
over a finished row leaves the time where it is.
-/

namespace MergeQueue

open QueueManager

/-- The row is in the queue, or a completion owns it. -/
def MergeRequestRow.InUse (r : MergeRequestRow) : Prop :=
  r.status.active = true ∨ r.pendingCompletion.isSome = true

/-- No cleanup, with whatever cutoff, deletes a row in use. -/
def CleanupSpares (db : Database) : Prop :=
  ∀ projectId cutoff, ∀ r ∈ db.mergeRequests.rows, r.InUse →
    r ∈ (cleanupOldEntries projectId cutoff db).2.mergeRequests.rows

/-- The call writes an active status over a row that has a finish time. -/
def QueueOp.Reopens (op : QueueOp) (db : Database) : Prop :=
  ∃ projectId mrIid state extra, op = .updateMrState projectId mrIid state extra ∧
    state.active = true ∧
    ∃ r ∈ db.mergeRequests.rows, r.projectId = projectId ∧ r.iid = mrIid ∧
      r.pendingCompletion = none ∧ r.finishedAt ≠ none

/-! ## What a cleanup deletes -/

theorem mem_cleanupOldEntries {projectId : ℕ} {cutoff : ℤ} {db : Database}
    {r : MergeRequestRow} :
    r ∈ (cleanupOldEntries projectId cutoff db).2.mergeRequests.rows ↔
      r ∈ db.mergeRequests.rows ∧
        ¬((∃ finished, r.finishedAt = some finished ∧ finished < cutoff) ∧
          r.projectId = projectId ∧ r.pendingCompletion = none) := by
  rw [cleanupOldEntries, KeyedTable.mem_deleteWhere, ← Bool.not_eq_true]
  simp only [Bool.and_eq_true, Option.any_eq_true, decide_eq_true_eq, Option.isNone_iff_eq_none,
    and_assoc]

/-- An active row that no completion owns has no finish time. -/
def ActiveUnfinished (db : Database) : Prop :=
  ∀ r ∈ db.mergeRequests.rows, r.status.active = true → r.pendingCompletion = none →
    r.finishedAt = none

theorem cleanupSpares_iff_activeUnfinished {db : Database} :
    CleanupSpares db ↔ ActiveUnfinished db := by
  constructor
  · intro hspares r hr hactive hnone
    cases hfinished : r.finishedAt with
    | none => rfl
    | some finished =>
        have hkept := hspares r.projectId (finished + 1) r hr (Or.inl hactive)
        have hdeleted := (mem_cleanupOldEntries.mp hkept).2
        exact absurd ⟨⟨finished, hfinished, by omega⟩, rfl, hnone⟩ hdeleted
  · intro hunfinished projectId cutoff r hr huse
    apply mem_cleanupOldEntries.mpr
    refine ⟨hr, ?_⟩
    rintro ⟨⟨finished, hfinished, -⟩, -, hnone⟩
    rcases huse with hactive | howned
    · rw [hunfinished r hr hactive hnone] at hfinished
      cases hfinished
    · rw [hnone] at howned
      cases howned

/-! ## What a call does to the finish time -/

namespace QueueOp

/-- An active row without a completion was one before, with the same finish time, or
a status write made it one. -/
theorem finishedAt_of_rowChange {now : ℤ} {op : QueueOp} {r r' : MergeRequestRow}
    (h : RowChange now op r r') (hactive : r'.status.active = true)
    (hnone : r'.pendingCompletion = none) :
    r.pendingCompletion = none ∧ r'.finishedAt = r.finishedAt ∧
      (r.status.active = true ∨
        ∃ extra, op = .updateMrState r.projectId r.iid r'.status extra) := by
  cases op with
  | removeFromQueue =>
      rcases h with rfl | ⟨-, -, rfl⟩
      · exact ⟨hnone, rfl, Or.inl hactive⟩
      · cases hactive
  | markStaleWarningSent =>
      rcases h with rfl | ⟨-, -, rfl⟩
      · exact ⟨hnone, rfl, Or.inl hactive⟩
      · exact ⟨hnone, rfl, Or.inl hactive⟩
  | updateMrState projectId mrIid state extra =>
      rcases h with rfl | ⟨rfl, rfl, hnone, rfl⟩
      · exact ⟨hnone, rfl, Or.inl hactive⟩
      · have hstate : state.active = true := hactive
        have hfinished : (updatedRow state extra now r).finishedAt = r.finishedAt := by
          simp [updatedRow, hstate]
        exact ⟨hnone, hfinished, Or.inr ⟨extra, rfl⟩⟩
  | saveCompletionProgress =>
      rcases h with rfl | ⟨-, -, -, rfl⟩
      · exact ⟨hnone, rfl, Or.inl hactive⟩
      · cases hnone
  | deferRequeue | cancelRequeue =>
      rcases h with rfl | ⟨-, _, _, -, rfl⟩
      · exact ⟨hnone, rfl, Or.inl hactive⟩
      · exact ⟨hnone, rfl, Or.inl hactive⟩
  | refreshRequeueLabels =>
      rcases h with rfl | ⟨-, _, _, -, -, rfl⟩
      · exact ⟨hnone, rfl, Or.inl hactive⟩
      · exact ⟨hnone, rfl, Or.inl hactive⟩
  | prepareCompletion =>
      rcases h with rfl | ⟨-, -, -, -, rfl⟩
      · exact ⟨hnone, rfl, Or.inl hactive⟩
      · cases hnone
  | clearPendingNotification | stageCompletionPositions =>
      obtain ⟨note, rfl⟩ := h
      exact ⟨hnone, rfl, Or.inl hactive⟩
  | finalizeCompletion =>
      obtain ⟨note, ignored, rfl⟩ := h
      exact ⟨hnone, rfl, Or.inl hactive⟩
  | updateHotfixStatus | activatePriorities =>
      obtain ⟨_, _, _, _, _, _, rfl, -⟩ := h
      exact ⟨hnone, rfl, Or.inl hactive⟩
  | addToQueue | getQueueItem | getActiveQueue | getPendingCompletions | getStaleMrs | getMrState
  | completeMr | cleanupOldEntries =>
      cases h
      exact ⟨hnone, rfl, Or.inl hactive⟩

theorem exec_activeUnfinished {qm : QueueManager} {now : ℤ} {tokens : ℕ → Uuid} {op : QueueOp}
    {db db' : Database} {answer : op.Answer} (h : op.exec qm now tokens db = .ok (answer, db'))
    (hunfinished : ActiveUnfinished db) (hreopens : ¬op.Reopens db) : ActiveUnfinished db' := by
  intro r' hr' hactive hnone
  rcases (exec_evolves h).source r' hr' with ⟨r, hr, -, -, hchange⟩ | ⟨-, hfresh⟩
  · obtain ⟨howned, hsame, horigin⟩ := finishedAt_of_rowChange hchange hactive hnone
    rw [hsame]
    rcases horigin with hbefore | ⟨extra, hop⟩
    · exact hunfinished r hr hbefore howned
    · by_contra hfinished
      exact hreopens ⟨_, _, _, extra, hop, hactive, r, hr, rfl, rfl, howned, hfinished⟩
  · obtain ⟨params, isHotfix, isAutomated, queuedAt, note, ignored, hmade⟩ := hfresh
    rw [hmade]
    rfl

/-- The row that a call reopens is active and still has its finish time. -/
theorem exec_of_reopens {qm : QueueManager} {now : ℤ} {tokens : ℕ → Uuid} {op : QueueOp}
    {db : Database} (hreopens : op.Reopens db) :
    ∃ answer db', op.exec qm now tokens db = .ok (answer, db') ∧ ¬ActiveUnfinished db' := by
  obtain ⟨projectId, mrIid, state, extra, rfl, hactive, r, hr, hproject, hiid, hnone, hfinished⟩ :=
    hreopens
  let hit := fun s : MergeRequestRow ↦
    s.iid = mrIid && s.projectId = projectId && s.pendingCompletion.isNone
  have hhit : hit r = true := by simp [hit, hproject, hiid, hnone]
  have hany := List.any_eq_true.mpr ⟨r, hr, hhit⟩
  refine ⟨true, _, if_pos hany, fun hunfinished ↦ hfinished ?_⟩
  have hsame : (updatedRow state extra now r).finishedAt = none := by
    refine hunfinished (updatedRow state extra now r) ?_ hactive hnone
    rw [KeyedTable.mem_updateWhere]
    exact ⟨r, hr, if_pos hhit⟩
  simpa [updatedRow, hactive] using hsame

end QueueOp

/-! ## Every run -/

theorem activeUnfinished_empty : ActiveUnfinished (databaseAfter []) := by
  intro r hr
  cases hr

/-- Along a run the cleanup spares the rows in use exactly where no status write
reopens a finished row. -/
theorem cleanupSpares_iff (calls : List Call) :
    (∀ before, before <+: calls → CleanupSpares (databaseAfter before)) ↔
      ∀ before call, before ++ [call] <+: calls → ¬call.op.Reopens (databaseAfter before) := by
  constructor
  · intro hspares before call hcall hreopens
    have hafter := cleanupSpares_iff_activeUnfinished.mp (hspares _ hcall)
    obtain ⟨answer, db', hexec, hfinished⟩ :=
      @QueueOp.exec_of_reopens call.qm call.now call.tokens _ _ hreopens
    rw [databaseAfter_append, hexec] at hafter
    exact hfinished hafter
  · intro hcalls before
    rw [cleanupSpares_iff_activeUnfinished]
    induction before using List.reverseRecOn with
    | nil => exact fun _ ↦ activeUnfinished_empty
    | append_singleton before call ih =>
        intro hbefore
        have hunfinished := ih ((List.prefix_append _ _).trans hbefore)
        rw [databaseAfter_append]
        cases hexec : call.op.exec call.qm call.now call.tokens (databaseAfter before) with
        | error e => exact hunfinished
        | ok out =>
            exact QueueOp.exec_activeUnfinished hexec hunfinished (hcalls before call hbefore)

/-- A merged row that is put back into the queue is cleaned up from there. -/
theorem cleanup_deletes_requeued : ¬ ∀ calls : List Call, CleanupSpares (databaseAfter calls) := by
  intro hclaim
  let calls := [queueCall (.addToQueue 1 (waitingMr 7) false),
    queueCall (.updateMrState 1 7 .merged {}), queueCall (.updateMrState 1 7 .queued {})]
  have hdeleted : ∃ r ∈ (databaseAfter calls).mergeRequests.rows, r.status.active = true ∧
      r ∉ (cleanupOldEntries 1 1 (databaseAfter calls)).2.mergeRequests.rows := by
    decide +kernel
  obtain ⟨r, hr, hactive, hgone⟩ := hdeleted
  exact hgone (hclaim calls 1 1 r hr (Or.inl hactive))

end MergeQueue
