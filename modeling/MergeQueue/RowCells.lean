import MergeQueue.QueueMetadata

/-!
# Rows as cells

The row of a merge request, without the feedback that still has to be sent, is a cell of
the database.  An operation on one merge request changes its cell and no other.
-/

namespace MergeQueue

open QueueManager

/-- The row without the feedback that still has to be sent. -/
def MergeRequestRow.quiet (r : MergeRequestRow) : MergeRequestRow :=
  { r with pendingNotification := none }

/-- The row of a merge request without its feedback. -/
def Database.cell (projectId : ℕ) (db : Database) (iid : ℕ) : Option MergeRequestRow :=
  (db.row projectId iid).map MergeRequestRow.quiet

def World.cell (settings : Settings) (w : World) (iid : ℕ) : Option MergeRequestRow :=
  w.db.cell settings.gitlabProjectId iid

section Cell

variable {projectId iid : ℕ} {db : Database}

theorem cell_of_row {r : MergeRequestRow} (h : db.row projectId iid = some r) :
    db.cell projectId iid = some r.quiet := by
  rw [Database.cell, h, Option.map_some]

theorem quiet_of_feedback {r r' : MergeRequestRow} (h : QueueOp.Feedback r r') :
    r'.quiet = r.quiet := by
  obtain ⟨note, rfl⟩ := h
  rfl

/-- A cell is a row up to feedback, which no condition on the row reads. -/
theorem cell_any (p : MergeRequestRow → Bool) (hp : ∀ r, p r.quiet = p r) :
    (db.cell projectId iid).any p = (db.row projectId iid).any p := by
  rw [Database.cell, Option.any_map]
  cases db.row projectId iid with
  | none => rfl
  | some r => exact hp r

theorem cell_clearPendingNotification (mrIid : ℕ) (pending : PendingNotification) :
    (clearPendingNotification projectId mrIid pending db).cell projectId iid =
      db.cell projectId iid := by
  unfold clearPendingNotification Database.cell Database.row
  simp only [KeyedTable.byKey_updateWhere, Option.map_map]
  congr 1
  funext r
  simp only [Function.comp_apply]
  split_ifs <;> rfl

theorem cell_removeFromQueue (mrIid : ℕ) :
    (removeFromQueue projectId mrIid db).2.cell projectId iid =
      if iid = mrIid then (db.cell projectId iid).map fun r ↦ { r with status := .removed }
      else db.cell projectId iid := by
  unfold removeFromQueue Database.cell Database.row
  simp only [KeyedTable.byKey_updateWhere, Option.map_map]
  cases hrow : db.mergeRequests.byKey (projectId, iid) with
  | none => simp
  | some r =>
      have hkey := KeyedTable.key_of_byKey hrow
      simp only [key_mergeRequestRow, Prod.mk.injEq] at hkey
      obtain ⟨rfl, rfl⟩ := hkey
      by_cases hiid : r.iid = mrIid
      · by_cases hstatus : r.status = .removed
        · simp [hiid, hstatus, MergeRequestRow.quiet]
        · simp [hiid, hstatus, MergeRequestRow.quiet]
      · simp [hiid]

theorem row_insertMr_of_ne {params : RequeueParams} {isHotfix isAutomated : Bool} {queuedAt : ℤ}
    (h : (params.projectId, params.iid) ≠ (projectId, iid)) :
    (insertMr db params isHotfix isAutomated queuedAt).row projectId iid =
      db.row projectId iid := by
  have hrow : (db.mergeRequests.insertOrIgnore
      (insertedRow params isHotfix isAutomated queuedAt)).byKey (projectId, iid) =
        db.row projectId iid := KeyedTable.byKey_insertOrIgnore_of_ne h
  exact hrow

theorem row_insertMr_of_free {params : RequeueParams} {isHotfix isAutomated : Bool} {queuedAt : ℤ}
    (h : db.row params.projectId params.iid = none) :
    (insertMr db params isHotfix isAutomated queuedAt).row params.projectId params.iid =
      some (insertedRow params isHotfix isAutomated queuedAt db.mergeRequests.nextId) := by
  have hrow : (db.mergeRequests.insertOrIgnore
      (insertedRow params isHotfix isAutomated queuedAt)).byKey (params.projectId, params.iid) =
        some (insertedRow params isHotfix isAutomated queuedAt db.mergeRequests.nextId) :=
    KeyedTable.byKey_insertOrIgnore_of_free h
  exact hrow

/-- The database without the row of a merge request. -/
theorem row_deleted_of_ne {mrIid : ℕ} (h : iid ≠ mrIid) :
    Database.row
        { db with
          mergeRequests := db.mergeRequests.deleteWhere fun r ↦
            r.iid = mrIid && r.projectId = projectId } projectId iid = db.row projectId iid := by
  refine KeyedTable.byKey_deleteWhere_of_forall fun r hr ↦ ?_
  simp only [key_mergeRequestRow, Prod.mk.injEq] at hr
  simp [hr.2, h]

theorem row_deleted :
    Database.row
        { db with
          mergeRequests := db.mergeRequests.deleteWhere fun r ↦
            r.iid = iid && r.projectId = projectId } projectId iid = none := by
  refine KeyedTable.byKey_eq_none_iff.mpr fun r hr hkey ↦ ?_
  obtain ⟨-, hother⟩ := KeyedTable.mem_deleteWhere.mp hr
  simp only [key_mergeRequestRow, Prod.mk.injEq] at hkey
  simp [hkey.1, hkey.2] at hother

/-- An enqueue changes no other row. -/
theorem row_addToQueue_of_ne {qm : QueueManager} {mr : MergeRequest} {isHotfix : Bool} {now : ℤ}
    {item : Option QueueItem} {db' : Database}
    (h : qm.addToQueue projectId mr isHotfix now db = .ok (item, db')) (hiid : iid ≠ mr.iid) :
    db'.row projectId iid = db.row projectId iid := by
  have hkey : ((projectId, mr.iid) : ℕ × ℕ) ≠ (projectId, iid) := by simp [hiid.symm]
  obtain ⟨classes, -, h⟩ := bind_eq_ok.mp h
  obtain ⟨-, rfl⟩ := Prod.mk.inj (Except.ok.inj h)
  split_ifs
  · rw [row_insertMr_of_ne hkey, row_deleted_of_ne hiid]
  · rw [row_insertMr_of_ne hkey]
  · exact row_deleted_of_ne hiid
  · rfl

/-- What GitLab's labels make of a row that an enqueue inserted. -/
structure Inserted (labels : List String) (classes : Bool × Bool) (r : MergeRequestRow) :
    Prop where
  status : r.status = .queued
  pendingCompletion : r.pendingCompletion = none
  labels : r.labels = .json labels
  isHotfix : r.isHotfix = classes.1
  isAutomated : r.isAutomated = classes.2

/-- An enqueue of a merge request without a lifecycle inserts its row. -/
theorem row_addToQueue {qm : QueueManager} {mr : MergeRequest} {isHotfix : Bool}
    {classes : Bool × Bool} (now : ℤ)
    (hclasses : qm.classifyLabels projectId mr.labels isHotfix = .ok classes)
    (hended : ∀ r ∈ db.row projectId mr.iid, r.status.active = false ∧
      r.pendingCompletion = none) :
    ∃ item db', qm.addToQueue projectId mr isHotfix now db = .ok (item, db') ∧
      ∃ r, db'.row projectId mr.iid = some r ∧ Inserted mr.labels classes r := by
  simp only [QueueManager.addToQueue, hclasses, bind, Except.bind]
  refine ⟨_, _, rfl, ?_⟩
  cases hrow : db.row projectId mr.iid with
  | none =>
      simp only [Option.any_none, Bool.false_eq_true, if_false, Option.isNone_none, Bool.or_true,
        if_true]
      exact ⟨_, row_insertMr_of_free hrow, ⟨rfl, rfl, rfl, rfl, rfl⟩⟩
  | some r =>
      obtain ⟨hinactive, hopen⟩ := hended r hrow
      simp only [Option.any_some, Status.terminal_eq_not_active, hinactive, hopen,
        Option.isNone_none, Bool.not_false, Bool.and_true, Bool.true_or, if_true]
      exact ⟨_, row_insertMr_of_free row_deleted, ⟨rfl, rfl, rfl, rfl, rfl⟩⟩

/-- The row with the labels that GitLab reports. -/
def MergeRequestRow.relabelled (labels : List String) (classes : Bool × Bool)
    (r : MergeRequestRow) : MergeRequestRow :=
  { r with
    isHotfix := classes.1
    isAutomated := classes.2
    labels := .json labels
    metadataVersion := r.metadataVersion + 1 }

/-- A refresh under the revision of the row writes labels that say something new, and
changes only feedback elsewhere. -/
theorem cell_updateHotfixStatus {qm : QueueManager} {labels : List String}
    {hotfix isHotfix isAutomated : Bool} {r : MergeRequestRow} (notify : Bool) (now : ℤ)
    (tokens : ℕ → Uuid)
    (hclasses : qm.classifyLabels projectId labels hotfix = .ok (isHotfix, isAutomated))
    (hrow : db.row projectId iid = some r) (hactive : r.status.active = true)
    (hnew : ¬ Says isHotfix isAutomated labels r) :
    ∃ db', qm.updateHotfixStatus projectId iid isHotfix labels (some (r.id, r.metadataVersion))
        notify none (some isAutomated) now tokens db = .ok (true, db') ∧
      db'.cell projectId iid = some (r.quiet.relabelled labels (isHotfix, isAutomated)) ∧
      ∀ other, other ≠ iid → db'.cell projectId other = db.cell projectId other := by
  obtain ⟨automated, hagain, hautomated⟩ := classifyLabels_again hclasses
  obtain ⟨hmem, hkey⟩ := KeyedTable.byKey_eq_some_iff.mp hrow
  simp only [key_mergeRequestRow, Prod.mk.injEq] at hkey
  have hcurrent : Current projectId iid (r.id, r.metadataVersion) r :=
    ⟨hkey.1, hkey.2, hactive, rfl, rfl⟩
  let hit := fun s : MergeRequestRow ↦
    s.iid = iid && s.projectId = projectId && s.status.active &&
      ((some (r.id, r.metadataVersion)).all fun handle ↦
        s.id = handle.1 && s.metadataVersion = handle.2) &&
      (s.isHotfix ≠ isHotfix || s.isAutomated ≠ isAutomated ||
        (if s.labels = .null then SavedLabels.json [] else s.labels) ≠ .json labels)
  let written := db.mergeRequests.updateWhere hit
    (MergeRequestRow.relabelled labels (isHotfix, isAutomated))
  have hhit : hit r = true := (hit_iff r).mpr ⟨hcurrent, hnew⟩
  have hany : db.mergeRequests.rows.any hit = true := List.any_eq_true.mpr ⟨r, hmem, hhit⟩
  have hcell : ∀ k, (written.byKey (projectId, k)).map MergeRequestRow.quiet =
      if k = iid then some (r.quiet.relabelled labels (isHotfix, isAutomated))
      else db.cell projectId k := by
    intro k
    rw [KeyedTable.byKey_updateWhere]
    split_ifs with hk
    · subst hk
      simp only [show db.mergeRequests.byKey (projectId, k) = some r from hrow, Option.map_some,
        hhit, if_true]
      rfl
    · cases hother : db.mergeRequests.byKey (projectId, k) with
      | none => simp [Database.cell, Database.row, hother]
      | some s =>
          have hskey := KeyedTable.key_of_byKey hother
          simp only [key_mergeRequestRow, Prod.mk.injEq] at hskey
          have hmiss : hit s = false := by simp [hit, hskey.2, hk]
          simp [Database.cell, Database.row, hother, hmiss]
  have hfeedback : ∀ feedback queue k,
      ((stageFeedback feedback queue written).byKey (projectId, k)).map MergeRequestRow.quiet =
        (written.byKey (projectId, k)).map MergeRequestRow.quiet := by
    intro feedback queue k
    obtain ⟨f, hf, hrows, -⟩ := QueueOp.stageFeedback_rows feedback queue written
    rw [KeyedTable.byKey_of_rows_eq_map hrows fun s ↦ (hf s).identity.2, Option.map_map]
    congr 1
    funext s
    exact quiet_of_feedback (hf s)
  obtain ⟨table, hexec, htable⟩ : ∃ table : KeyedTable MergeRequestRow,
      qm.updateHotfixStatus projectId iid isHotfix labels (some (r.id, r.metadataVersion)) notify
        none (some isAutomated) now tokens db = .ok (true, { db with mergeRequests := table }) ∧
      ∀ k, (table.byKey (projectId, k)).map MergeRequestRow.quiet =
        (written.byKey (projectId, k)).map MergeRequestRow.quiet := by
    unfold QueueManager.updateHotfixStatus
    rw [hagain]
    simp only [bind, Except.bind, pure, Except.pure, Option.getD_some, hautomated,
      acknowledgeActiveAdmission]
    rw [show (db.mergeRequests.rows.any fun s ↦ _) = true from hany]
    cases notify with
    | false => exact ⟨written, rfl, fun k ↦ rfl⟩
    | true => exact ⟨_, rfl, hfeedback _ _⟩
  refine ⟨_, hexec, ?_, fun other hother ↦ ?_⟩
  · exact ((htable iid).trans (hcell iid)).trans (if_pos rfl)
  · exact ((htable other).trans (hcell other)).trans (if_neg hother)

end Cell

end MergeQueue
