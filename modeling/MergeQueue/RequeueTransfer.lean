import MergeQueue.QueueRuns

/-!
# Transfer of a requeue request

The transaction that deletes a completed row decides on the request saved on it
at that moment, and leaves either one new row for it or none.
-/

namespace MergeQueue

open QueueManager QueueOp

/-- The rows of one merge request. -/
def Database.rowsOf (db : Database) (projectId mrIid : ℕ) : List MergeRequestRow :=
  db.mergeRequests.rows.filter fun r ↦ decide ((r.projectId, r.iid) = (projectId, mrIid))

theorem Database.rowsOf_eq (db : Database) (projectId mrIid : ℕ) :
    db.rowsOf projectId mrIid = (db.row projectId mrIid).toList :=
  db.mergeRequests.filter_key (projectId, mrIid)

/-- `db'` holds one row of the merge request: a queued one, made for `request`. -/
def Requeued (qm : QueueManager) (projectId mrIid : ℕ) (request : Requeue)
    (db db' : Database) : Prop :=
  ∃ admission isHotfix isAutomated new,
    request.admission = some admission ∧
    qm.classifyLabels projectId admission.params.labels admission.params.isHotfix =
      .ok (isHotfix, isAutomated) ∧
    db'.rowsOf projectId mrIid = [new] ∧ new.status = .queued ∧
    new.id = db.mergeRequests.nextId ∧ (∀ r ∈ db.mergeRequests.rows, r.id < new.id) ∧
    new.labels = .json admission.params.labels ∧ new.isHotfix = isHotfix ∧
    new.isAutomated = isAutomated

/-- Staging feedback changes no other column of a row. -/
theorem row_stageCompletionPositions (projectId : ℕ) (positions : List (ℕ × ℕ)) (oldTotal : ℕ)
    (tokens : ℕ → Uuid) (db : Database) (p i : ℕ) :
    ∃ f : MergeRequestRow → MergeRequestRow, (∀ r, Feedback r (f r)) ∧
      (QueueManager.stageCompletionPositions projectId positions oldTotal tokens db).row p i =
        (db.row p i).map f := by
  obtain ⟨f, hf, hrows, -⟩ := stageFeedback_rows _ _ db.mergeRequests
  exact ⟨f, hf, KeyedTable.byKey_of_rows_eq_map hrows (fun r ↦ (hf r).identity.2) (p, i)⟩

theorem row_archived {projectId : ℕ} {item : QueueItem} {payload : CompletionPayload}
    {db : Database} {r : MergeRequestRow} (hr : r ∈ db.mergeRequests.rows)
    (hproject : r.projectId = projectId) (hid : r.id = item.queueId)
    (hpending : r.pendingCompletion = some payload)
    (hrequeue : r.requeueRequest = item.requeueRequest) :
    (archived projectId item payload db).row r.projectId r.iid = none := by
  have hhit : (decide (r.projectId = projectId) && decide (r.id = item.queueId) &&
      decide (r.pendingCompletion = some payload) &&
      decide (r.requeueRequest = item.requeueRequest)) = true := by
    simp [hproject, hid, hpending, hrequeue]
  exact KeyedTable.byKey_deleteWhere_self
    (p := fun r ↦ r.projectId = projectId && r.id = item.queueId &&
      r.pendingCompletion = some payload && r.requeueRequest = item.requeueRequest) hr hhit

/-- A transfer into a table without a row of the merge request leaves the new row. -/
theorem row_transferRequeue {qm : QueueManager} {projectId mrIid : ℕ}
    {payload : CompletionPayload} {requeue : Requeue} {now : ℤ} {token : Uuid}
    {db db' : Database}
    (h : qm.transferRequeue projectId mrIid payload requeue now token db = .ok db')
    (hparams : ∀ admission ∈ requeue.admission,
      admission.params.projectId = projectId ∧ admission.params.iid = mrIid)
    (hfree : db.row projectId mrIid = none) :
    ∃ admission isHotfix isAutomated, requeue.admission = some admission ∧
      qm.classifyLabels projectId admission.params.labels admission.params.isHotfix =
        .ok (isHotfix, isAutomated) ∧
      db'.row projectId mrIid =
        some
          { insertedRow admission.params isHotfix isAutomated now db.mergeRequests.nextId with
            pendingNotification := some { token, status := .queued, oldPosition := 0 }
            ignoredLabelEvents :=
              payload.labelEvents ++ (admissionReceipts requeue).map .admission } := by
  obtain ⟨admission, isHotfix, isAutomated, hadmission, hclass, rfl⟩ := transferRequeue_eq_ok h
  refine ⟨admission, isHotfix, isAutomated, hadmission, hclass, ?_⟩
  obtain ⟨hproject, hiid⟩ := hparams admission hadmission
  have hkey : Keyed.key
      (insertedRow admission.params isHotfix isAutomated now db.mergeRequests.nextId) =
      (projectId, mrIid) := by
    simp [insertedRow, hproject, hiid]
  have hinserted : (insertMr db admission.params isHotfix isAutomated now).row projectId mrIid =
      some (insertedRow admission.params isHotfix isAutomated now db.mergeRequests.nextId) := by
    have hinsert := @KeyedTable.byKey_insertOrIgnore_of_free _ _ _ _
      (insertedRow admission.params isHotfix isAutomated now) (fun _ ↦ rfl) db.mergeRequests
      (by rw [hkey]; exact hfree)
    rw [hkey] at hinsert
    exact hinsert
  simp only [Database.row] at hinserted ⊢
  rw [KeyedTable.byKey_updateWhere, hinserted]
  simp [insertedRow, hproject, hiid]

/-- In every run, a finalization that returns true decided on the request saved on
the row, and leaves one new row for it unless it is absent or cancelled; one that
returns false changes nothing. -/
theorem finalizeCompletion_transfers {calls : List Call} (hcalls : Permitted calls .empty)
    {qm : QueueManager} {projectId : ℕ} {item : QueueItem} {payload : CompletionPayload} {now : ℤ}
    {tokens : ℕ → Uuid} {done : Bool} {db' : Database}
    (hitem : item ∈ (run calls .empty).items)
    (h : qm.finalizeCompletion projectId item payload now tokens (run calls .empty).db =
      .ok (done, db')) :
    (done = true → ∃ row,
      (run calls .empty).db.rowsOf projectId item.mrIid = [row] ∧ row.id = item.queueId ∧
      row.pendingCompletion = some payload ∧ row.requeueRequest = item.requeueRequest ∧
      (∀ request, row.requeueRequest = some request →
        requeueIsCancelled request payload.labelEvents = false →
          Requeued qm projectId item.mrIid request (run calls .empty).db db') ∧
      ((∀ request, row.requeueRequest = some request →
        requeueIsCancelled request payload.labelEvents = true) →
          db'.rowsOf projectId item.mrIid = [])) ∧
    (done = false → db' = (run calls .empty).db) := by
  have hsound := QueueWorld.sound_empty.run hcalls
  generalize run calls .empty = w at *
  rcases finalizeCompletion_eq_ok h with ⟨rfl, rfl⟩ | ⟨rfl, ⟨row, hrow, hrowKey⟩, hresult⟩
  · exact ⟨nofun, fun _ ↦ rfl⟩
  · obtain ⟨hproject, hid, hpending, hrequeue⟩ := hrowKey
    obtain ⟨db₁, hdb₁, rfl⟩ := hresult
    obtain ⟨-, hiid⟩ := hsound.shown item hitem row hrow hid
    have hbefore : w.db.row projectId item.mrIid = some row :=
      KeyedTable.byKey_eq_some_iff.mpr ⟨hrow, by simp [hproject, hiid]⟩
    have hfree : (archived projectId item payload w.db).row projectId item.mrIid = none := by
      rw [← hproject, ← hiid]
      exact hproject ▸ row_archived hrow hproject hid hpending hrequeue
    obtain ⟨f, hf, hstage⟩ := row_stageCompletionPositions projectId payload.request.positions
      payload.request.oldTotal tokens db₁ projectId item.mrIid
    refine ⟨fun _ ↦ ⟨row, ?_, hid, hpending, hrequeue, ?_, ?_⟩, nofun⟩
    · rw [Database.rowsOf_eq, hbefore, Option.toList_some]
    · intro request hrequest hlive
      rw [hrequeue] at hrequest
      rcases hdb₁ with ⟨hcancelled, -⟩ | ⟨transferred, heq, -, htransfer⟩
      · rw [hcancelled request hrequest] at hlive
        cases hlive
      · cases heq.symm.trans hrequest
        have hparams : ∀ admission ∈ request.admission,
            admission.params.projectId = projectId ∧ admission.params.iid = item.mrIid := by
          intro admission hadmission
          have howner := hsound.requests row hrow request (hrequeue ▸ heq) admission hadmission
          exact ⟨howner.1.trans hproject, howner.2.trans hiid⟩
        obtain ⟨admission, isHotfix, isAutomated, hadmission, hclass, hnew⟩ :=
          row_transferRequeue htransfer hparams hfree
        rw [hnew, Option.map_some] at hstage
        obtain ⟨note, hnote⟩ := hf
          { insertedRow admission.params isHotfix isAutomated now
              (archived projectId item payload w.db).mergeRequests.nextId with
            pendingNotification := some { token := tokens 0, status := .queued, oldPosition := 0 }
            ignoredLabelEvents :=
              payload.labelEvents ++ (admissionReceipts request).map .admission }
        refine ⟨admission, isHotfix, isAutomated, _, hadmission, hclass,
          by rw [Database.rowsOf_eq, hstage, Option.toList_some], ?_⟩
        rw [hnote]
        exact ⟨rfl, rfl, fun r hr ↦ w.db.mergeRequests.below r hr, rfl, rfl, rfl⟩
    · intro hnone
      rcases hdb₁ with ⟨-, rfl⟩ | ⟨transferred, heq, hlive, -⟩
      · rw [Database.rowsOf_eq, hstage, hfree]
        rfl
      · rw [hnone transferred (hrequeue ▸ heq)] at hlive
        cases hlive

/-! ## A label event that arrives between the outcome and the final transaction -/

def sampleMergeRequest : MergeRequest where
  iid := 7
  title := "Fix the build"
  state := .opened
  labels := ["merge_queue"]
  sha := "a1"
  sourceBranch := "fix"
  targetBranch := "master"
  mergeStatus := "can_be_merged"
  author := { id := 1, name := "Dev", username := "dev" }

def sampleCompletion : CompletionRequest where
  state := .merged
  notificationStatus := .merged
  context := [("merged_at", .time 5000000)]
  outcome := { historyStatus := .merged }

/-- The merge request waits, its outcome is frozen, and it is labelled again. -/
def relabelledCalls : List Call :=
  let call (now : ℤ) (op : QueueOp) : Call := { qm := {}, now, tokens := id, op }
  let opening := [call 0 (.addToQueue 1 sampleMergeRequest false),
    call 5000000 (.prepareCompletion 1 7 sampleCompletion)]
  let item := (run opening .empty).items.getLastD (rowToQueueItem sampleRow)
  let request : EnqueueRequest :=
    { clock := { requestedAt := some 6000000 }, triggers := ["merge_queue"], isHotfix := false }
  opening ++ [call 6000000 (.deferRequeue 1 item request false),
    call 7000000 (.getQueueItem 1 7)]

def relabelledItem : QueueItem :=
  (run relabelledCalls .empty).items.getLastD (rowToQueueItem sampleRow)

def relabelledPayload : CompletionPayload :=
  completionPayload (rowToQueueItem sampleRow) sampleCompletion 5000000

def relabelledOutcome : Except QueueError (Bool × Database) :=
  QueueManager.finalizeCompletion {} 1 relabelledItem relabelledPayload 8000000 id
    (run relabelledCalls .empty).db

theorem finalizeCompletion_transfers_relabelled :
    ∃ request db', relabelledItem.requeueRequest = some request ∧
      relabelledOutcome = .ok (true, db') ∧
      Requeued {} 1 7 request (run relabelledCalls .empty).db db' := by
  have hlive : (relabelledItem.requeueRequest.map fun request ↦
      requeueIsCancelled request relabelledPayload.labelEvents) = some false := by
    decide +kernel
  have hdone : relabelledOutcome.toOption.map Prod.fst = some true := by decide +kernel
  obtain ⟨request, hrequest, hlive⟩ := Option.map_eq_some_iff.mp hlive
  obtain ⟨⟨done, db'⟩, hfinal, rfl⟩ := Option.map_eq_some_iff.mp hdone
  have hfinal : relabelledOutcome = .ok (true, db') := by
    cases h : relabelledOutcome with
    | error e => simp [h, Except.toOption] at hfinal
    | ok result => simpa [h, Except.toOption] using hfinal
  obtain ⟨row, -, -, -, hrow, hrequeued, -⟩ :=
    (finalizeCompletion_transfers (by decide +kernel) (by decide +kernel) hfinal).1 rfl
  exact ⟨request, db', hrequest, hfinal, hrequeued request (hrow.trans hrequest) hlive⟩

end MergeQueue
