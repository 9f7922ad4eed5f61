import MergeQueue.PriorityOrder

/-!
# Startup activation of a priority policy

The activation plans on one reading of the queue, updates each planned row under
a guard on what it read, and then stages feedback for the rows that moved.  The
guards are a batch of updates of different rows, and so is the feedback.
-/

namespace MergeQueue

open QueueManager RankedQueue MergeRequestRepository

/-! ## The planned updates -/

section Updates

variable {projectId : ℕ} {updates : List ActivationUpdate} {table : KeyedTable MergeRequestRow}

theorem ActivationUpdate.id_of_selects {update : ActivationUpdate} {r : MergeRequestRow}
    (h : update.selects projectId r = true) : r.id = update.id := by
  simp only [ActivationUpdate.selects, Bool.and_eq_true, decide_eq_true_eq] at h
  exact h.1.1.2

/-- An update hits one row or none. -/
theorem countP_selects {update : ActivationUpdate} :
    table.rows.countP (update.selects projectId) = 1 ↔
      ∃ r ∈ table.rows, update.selects projectId r = true := by
  constructor
  · intro h
    exact List.countP_pos_iff.mp (by omega)
  · rintro ⟨r, hr, hselects⟩
    have hsome : (table.rows.find? (update.selects projectId)).isSome = true :=
      List.find?_isSome.mpr ⟨r, hr, hselects⟩
    rw [List.countP_eq_length_filter, table.filter_of_rowId fun s ↦ ActivationUpdate.id_of_selects]
    exact Option.length_toList_eq_one_iff.mpr hsome

theorem executeUpdates_eq (hnodup : (updates.map ActivationUpdate.id).Nodup)
    (hfound : ∀ update ∈ updates, ∃ r ∈ table.rows, update.selects projectId r = true) :
    updates.foldlM (executeUpdate projectId) table =
      .ok (updates.foldl
        (fun table update ↦ table.updateWhere (update.selects projectId) update.apply) table) := by
  induction updates generalizing table with
  | nil => rfl
  | cons update updates ih =>
      obtain ⟨hfirst, hrest⟩ := List.nodup_cons.mp hnodup
      rw [List.forall_mem_cons] at hfound
      have hexec : executeUpdate projectId table update =
          .ok (table.updateWhere (update.selects projectId) update.apply) :=
        if_pos (countP_selects.mpr hfound.1)
      rw [List.foldlM_cons, hexec, List.foldl_cons]
      apply ih hrest
      intro other hother
      obtain ⟨r, hr, hselects⟩ := hfound.2 other hother
      refine ⟨r, KeyedTable.mem_updateWhere.mpr ⟨r, hr, if_neg ?_⟩, hselects⟩
      intro hsame
      rw [← ActivationUpdate.id_of_selects hsame, ActivationUpdate.id_of_selects hselects] at hfirst
      exact hfirst (List.mem_map_of_mem hother)

/-- One planned row that is no more as planned makes the activation raise. -/
theorem executeUpdates_conflict (hnodup : (updates.map ActivationUpdate.id).Nodup)
    {update : ActivationUpdate} (hupdate : update ∈ updates)
    (hmissing : ∀ r ∈ table.rows, update.selects projectId r = false) :
    updates.foldlM (executeUpdate projectId) table =
      .error (.queueError "Priority activation conflicted with a runtime writer") := by
  induction updates generalizing table with
  | nil => cases hupdate
  | cons first updates ih =>
      obtain ⟨hfirst, hrest⟩ := List.nodup_cons.mp hnodup
      rw [List.foldlM_cons, executeUpdate]
      split_ifs with hcount
      · rcases List.mem_cons.mp hupdate with rfl | hlater
        · obtain ⟨r, hr, hselects⟩ := countP_selects.mp hcount
          rw [hmissing r hr] at hselects
          cases hselects
        · apply ih hrest hlater
          intro r' hr'
          obtain ⟨r, hr, rfl⟩ := KeyedTable.mem_updateWhere.mp hr'
          split_ifs with hselects
          · by_contra hagain
            have hid : (first.apply r).id = update.id :=
              ActivationUpdate.id_of_selects (by simpa using hagain)
            rw [← ActivationUpdate.id_of_selects hselects] at hfirst
            exact hfirst (hid ▸ List.mem_map_of_mem hlater)
          · exact hmissing r hr
      · rfl

end Updates

/-! ## The reclassified rows -/

/-- The row after the updates of a plan that was made of the rows as they are. -/
def activatedRow (projectId : ℕ) (names : List String) (row : MergeRequestRow) :
    MergeRequestRow :=
  if row.projectId = projectId && row.status.active && activates names row then
    { row with
      isAutomated := automatedBy names row.labels
      metadataVersion := row.metadataVersion + 1 }
  else row

section Plan

variable {projectId : ℕ} {names : List String} {db : Database}

theorem mem_plan {update : ActivationUpdate} :
    update ∈ (activationPlan names (getAllActive projectId db)).updates ↔
      ∃ r ∈ getAllActive projectId db, activates names r = true ∧
        update = ⟨automatedBy names r.labels, r.id, r.metadataVersion⟩ := by
  simp only [activationPlan, List.mem_map, List.mem_filter]
  constructor
  · rintro ⟨r, ⟨hr, hactivates⟩, rfl⟩
    exact ⟨r, hr, hactivates, rfl⟩
  · rintro ⟨r, hr, hactivates, rfl⟩
    exact ⟨r, ⟨hr, hactivates⟩, rfl⟩

theorem nodup_plan :
    ((activationPlan names (getAllActive projectId db)).updates.map ActivationUpdate.id).Nodup := by
  rw [activationPlan, List.map_map]
  apply List.Nodup.map_on
  · intro r hr s hs hid
    exact db.mergeRequests.eq_of_rowId_eq (mem_getAllActive.mp (List.mem_of_mem_filter hr)).1
      (mem_getAllActive.mp (List.mem_of_mem_filter hs)).1 hid
  · exact (nodup_getAllActive projectId db).filter _

theorem selects_self {r : MergeRequestRow} (hr : r ∈ getAllActive projectId db)
    (hactivates : activates names r = true) :
    ActivationUpdate.selects projectId ⟨automatedBy names r.labels, r.id, r.metadataVersion⟩ r =
      true := by
  simp only [activates, Bool.and_eq_true] at hactivates
  simp [ActivationUpdate.selects, (mem_getAllActive.mp hr).2.1, hactivates.1]

theorem ActivationUpdate.apply_identity (update : ActivationUpdate) (r : MergeRequestRow) :
    Keyed.rowId (update.apply r) = Keyed.rowId r ∧
      Keyed.key (update.apply r) = Keyed.key r := ⟨rfl, rfl⟩

/-- The table after the updates of a plan that was made of it. -/
def activatedTable (projectId : ℕ) (names : List String) (db : Database) :
    KeyedTable MergeRequestRow :=
  (activationPlan names (getAllActive projectId db)).updates.foldl
    (fun table update ↦
      table.updateWhere (update.selects projectId) update.apply
        (ActivationUpdate.apply_identity update))
    db.mergeRequests

theorem executePlan (projectId : ℕ) (names : List String) (db : Database) :
    (activationPlan names (getAllActive projectId db)).updates.foldlM (executeUpdate projectId)
      db.mergeRequests = .ok (activatedTable projectId names db) := by
  apply executeUpdates_eq nodup_plan
  intro update hupdate
  obtain ⟨r, hr, hactivates, rfl⟩ := mem_plan.mp hupdate
  exact ⟨r, (mem_getAllActive.mp hr).1, selects_self hr hactivates⟩

theorem activatedTable_rows :
    (activatedTable projectId names db).rows =
      db.mergeRequests.rows.map (activatedRow projectId names) := by
  rw [activatedTable, KeyedTable.foldl_updateWhere_rows
    (fun update r h ↦ ActivationUpdate.id_of_selects h) nodup_plan]
  refine List.map_congr_left fun r hr ↦ ?_
  rw [activatedRow]
  cases hfind : (activationPlan names (getAllActive projectId db)).updates.find?
      fun update ↦ update.selects projectId r with
  | some update =>
      have hselects := List.find?_some hfind
      obtain ⟨s, hs, hactivates, rfl⟩ := mem_plan.mp (List.mem_of_find?_eq_some hfind)
      obtain ⟨hmem, hproject, hactive⟩ := mem_getAllActive.mp hs
      obtain rfl : r = s :=
        db.mergeRequests.eq_of_rowId_eq hr hmem (ActivationUpdate.id_of_selects hselects)
      simp [hproject, hactive, hactivates, ActivationUpdate.apply]
  | none =>
      rw [Option.elim_none, if_neg]
      intro hhit
      simp only [Bool.and_eq_true, decide_eq_true_eq] at hhit
      have hactive : r ∈ getAllActive projectId db :=
        mem_getAllActive.mpr ⟨hr, hhit.1.1, hhit.1.2⟩
      have hunselected := List.find?_eq_none.mp hfind _ (mem_plan.mpr ⟨r, hactive, hhit.2, rfl⟩)
      exact hunselected (selects_self hactive hhit.2)

theorem activatedTable_nextId :
    (activatedTable projectId names db).nextId = db.mergeRequests.nextId :=
  KeyedTable.foldl_updateWhere_nextId _ _

/-- Once reclassified, a row is as the policy says. -/
theorem activates_activatedRow {r : MergeRequestRow} (hproject : r.projectId = projectId)
    (hactive : r.status.active = true) :
    activates names (activatedRow projectId names r) = false := by
  unfold activatedRow
  split_ifs with hhit
  · simp [activates]
  · simpa [hproject, hactive] using hhit

end Plan

/-! ## The staged feedback -/

section Staging

variable {feedback : ℕ → MergeRequestRow → Option PendingNotification}
  {queue : List (MergeRequestRow × ℕ)} {table : KeyedTable MergeRequestRow}

/-- Whether the row gets the feedback for the entry of a queue. -/
def takesFeedback (feedback : ℕ → MergeRequestRow → Option PendingNotification)
    (entry : MergeRequestRow × ℕ) (row : MergeRequestRow) : Bool :=
  row.id = entry.1.id && (feedback entry.2 entry.1).isSome

theorem id_of_takesFeedback {entry : MergeRequestRow × ℕ} {r : MergeRequestRow}
    (h : takesFeedback feedback entry r = true) : r.id = entry.1.id := by
  simp only [takesFeedback, Bool.and_eq_true, decide_eq_true_eq] at h
  exact h.1

/-- Staging is a batch of updates of different rows. -/
theorem stageFeedback_eq_foldl :
    stageFeedback feedback queue table =
      queue.foldl
        (fun table entry ↦ table.updateWhere (takesFeedback feedback entry)
          fun r ↦ { r with pendingNotification := feedback entry.2 entry.1 })
        table := by
  induction queue generalizing table with
  | nil => rfl
  | cons entry queue ih =>
      rw [stageFeedback, List.foldl_cons, List.foldl_cons, ← ih]
      cases hfeedback : feedback entry.2 entry.1 with
      | none =>
          rw [KeyedTable.updateWhere_eq_self fun r _ ↦ by simp [takesFeedback, hfeedback]]
          rfl
      | some pending =>
          have hset : setPendingNotification table entry.1.id pending =
              table.updateWhere (takesFeedback feedback entry)
                fun r ↦ { r with pendingNotification := some pending } := by
            apply KeyedTable.ext
            · simp [setPendingNotification, takesFeedback, hfeedback]
            · rfl
          rw [← hset]
          rfl

theorem stageFeedback_eq_self (h : ∀ entry ∈ queue, feedback entry.2 entry.1 = none) :
    stageFeedback feedback queue table = table := by
  induction queue with
  | nil => rfl
  | cons entry queue ih =>
      rw [List.forall_mem_cons] at h
      rw [stageFeedback, List.foldl_cons, h.1]
      exact ih h.2

/-- The row with the feedback that a queue gives it. -/
def feedbackRow (feedback : ℕ → MergeRequestRow → Option PendingNotification)
    (queue : List (MergeRequestRow × ℕ)) (row : MergeRequestRow) : MergeRequestRow :=
  (queue.find? fun entry ↦ takesFeedback feedback entry row).elim row fun entry ↦
    { row with pendingNotification := feedback entry.2 entry.1 }

theorem feedback_feedbackRow (row : MergeRequestRow) :
    QueueOp.Feedback row (feedbackRow feedback queue row) := by
  unfold feedbackRow
  cases queue.find? fun entry ↦ takesFeedback feedback entry row with
  | some entry => exact ⟨_, rfl⟩
  | none => exact QueueOp.Feedback.refl row

theorem stageFeedback_rows_eq (hnodup : (queue.map fun entry ↦ entry.1.id).Nodup) :
    (stageFeedback feedback queue table).rows =
      table.rows.map (feedbackRow feedback queue) := by
  rw [stageFeedback_eq_foldl,
    KeyedTable.foldl_updateWhere_rows (fun _ _ h ↦ id_of_takesFeedback h) hnodup]
  rfl

theorem entry_eq_of_id {rows : List MergeRequestRow} (hnodup : (rows.map MergeRequestRow.id).Nodup)
    {k : ℕ} {row : MergeRequestRow} (h : rows[k]? = some row) {entry : MergeRequestRow × ℕ}
    (hentry : entry ∈ rows.zipIdx 1) (hid : row.id = entry.1.id) : entry = (row, k + 1) := by
  obtain ⟨hone, hget⟩ := List.mem_zipIdx_iff_le_and_getElem?_sub.mp hentry
  have hsame : (rows.map MergeRequestRow.id)[k]? = (rows.map MergeRequestRow.id)[entry.2 - 1]? := by
    rw [List.getElem?_map, List.getElem?_map, h, hget]
    exact congrArg some hid
  have hk : k < (rows.map MergeRequestRow.id).length := by
    rw [List.length_map]
    exact (List.getElem?_eq_some_iff.mp h).1
  have hindex : k = entry.2 - 1 := (List.getElem?_inj hk hnodup).mp hsame
  obtain ⟨s, position⟩ := entry
  obtain rfl : position = k + 1 := by
    simp only at hone hindex
    omega
  simp only [Nat.add_sub_cancel, h, Option.some.injEq] at hget
  rw [hget]

/-- The row in place `k` of the queue gets the feedback for its position. -/
theorem feedbackRow_of_getElem? {rows : List MergeRequestRow}
    (hnodup : (rows.map MergeRequestRow.id).Nodup) {k : ℕ} {row : MergeRequestRow}
    (h : rows[k]? = some row) :
    feedbackRow feedback (rows.zipIdx 1) row =
      { row with
        pendingNotification := (feedback (k + 1) row).or row.pendingNotification } := by
  unfold feedbackRow
  have hself : (row, k + 1) ∈ rows.zipIdx 1 :=
    List.mem_zipIdx_iff_le_and_getElem?_sub.mpr ⟨by simp, by simpa using h⟩
  cases hfind : (rows.zipIdx 1).find? fun entry ↦ takesFeedback feedback entry row with
  | some entry =>
      have htakes := List.find?_some hfind
      simp only [takesFeedback, Bool.and_eq_true, decide_eq_true_eq] at htakes
      obtain rfl := entry_eq_of_id hnodup h (List.mem_of_find?_eq_some hfind) htakes.1
      obtain ⟨pending, hpending⟩ := Option.isSome_iff_exists.mp htakes.2
      simp only at hpending
      simp [hpending]
  | none =>
      have hnone := List.find?_eq_none.mp hfind _ hself
      simp only [takesFeedback, decide_true, Bool.true_and, Bool.not_eq_true,
        Option.isSome_eq_false_iff, Option.isNone_iff_eq_none] at hnone
      simp [hnone]

theorem feedbackRow_of_not_mem {rows : List MergeRequestRow} {row : MergeRequestRow}
    (h : ∀ s ∈ rows, s.id ≠ row.id) : feedbackRow feedback (rows.zipIdx 1) row = row := by
  unfold feedbackRow
  cases hfind : (rows.zipIdx 1).find? fun entry ↦ takesFeedback feedback entry row with
  | some entry =>
      have htakes := List.find?_some hfind
      obtain ⟨-, hget⟩ := List.mem_zipIdx_iff_le_and_getElem?_sub.mp
        (List.mem_of_find?_eq_some hfind)
      exact absurd (id_of_takesFeedback htakes).symm (h _ (List.mem_of_getElem? hget))
  | none => rfl

end Staging

/-! ## Positions before and after -/

theorem lookup_of_mem {α β : Type} [DecidableEq α] {l : List (α × β)}
    (hnodup : (l.map Prod.fst).Nodup) {a : α} {b : β} (h : (a, b) ∈ l) : l.lookup a = some b := by
  induction l with
  | nil => cases h
  | cons entry l ih =>
      obtain ⟨hfirst, hrest⟩ := List.nodup_cons.mp hnodup
      rcases List.mem_cons.mp h with rfl | h
      · exact List.lookup_cons_self
      · have hne : a ≠ entry.1 := by
          rintro rfl
          exact hfirst (List.mem_map.mpr ⟨_, h, rfl⟩)
        rw [List.lookup_cons, beq_false_of_ne hne]
        exact ih hrest h

section Positions

variable {projectId : ℕ} {db db' : Database} {r : MergeRequestRow}

theorem nodup_ids (projectId : ℕ) (db : Database) :
    ((getAllActive projectId db).map MergeRequestRow.id).Nodup := by
  apply List.Nodup.map_on
  · intro r hr s hs hid
    exact db.mergeRequests.eq_of_rowId_eq (mem_getAllActive.mp hr).1 (mem_getAllActive.mp hs).1 hid
  · exact nodup_getAllActive projectId db

theorem nodup_waitingPositions (projectId : ℕ) (db : Database) :
    ((waitingPositions (getAllActive projectId db)).map Prod.fst).Nodup := by
  have hiids : ((getAllActive projectId db).map MergeRequestRow.iid).Nodup :=
    List.Nodup.map_on (fun r hr s hs ↦ iid_injective hr hs) (nodup_getAllActive projectId db)
  have hall : ((getAllActive projectId db).zipIdx 1).map (fun entry ↦ entry.1.iid) =
      (getAllActive projectId db).map MergeRequestRow.iid := by
    conv_rhs => rw [← List.zipIdx_map_fst 1 (getAllActive projectId db), List.map_map]
    rfl
  rw [waitingPositions, List.map_map]
  exact ((List.filter_sublist.map _).nodup (hall ▸ hiids))

/-- A waiting row is listed with its position, another one not at all. -/
theorem lookup_waitingPositions (hr : r ∈ getAllActive projectId db) :
    (waitingPositions (getAllActive projectId db)).lookup r.iid =
      if r.status = .queued then getQueuePosition projectId r.iid db else none := by
  obtain ⟨k, hk⟩ := List.getElem?_of_mem hr
  rw [(position_of_getElem? hk).1]
  have hentry : (r, k + 1) ∈ (getAllActive projectId db).zipIdx 1 :=
    List.mem_zipIdx_iff_le_and_getElem?_sub.mpr ⟨by simp, by simpa using hk⟩
  split_ifs with hqueued
  · apply lookup_of_mem (nodup_waitingPositions projectId db)
    exact List.mem_map.mpr ⟨_, List.mem_filter.mpr ⟨hentry, by simpa using hqueued⟩, rfl⟩
  · rw [List.lookup_eq_none_iff]
    rintro ⟨iid, position⟩ hlisted
    obtain ⟨⟨s, place⟩, hs, heq⟩ := List.mem_map.mp hlisted
    obtain ⟨hmem, hwaits⟩ := List.mem_filter.mp hs
    obtain ⟨-, hget⟩ := List.mem_zipIdx_iff_le_and_getElem?_sub.mp hmem
    cases heq
    simp only [bne_iff_ne, ne_eq, decide_eq_true_eq] at hwaits ⊢
    intro hiid
    obtain rfl := iid_injective hr (List.mem_of_getElem? hget) hiid
    exact hqueued hwaits

/-- Feedback moves no row. -/
theorem getAllActive_of_feedback {f : MergeRequestRow → MergeRequestRow}
    (hrows : db'.mergeRequests.rows = db.mergeRequests.rows.map f)
    (hf : ∀ r, QueueOp.Feedback r (f r)) :
    getAllActive projectId db' = (getAllActive projectId db).map f := by
  have hsame : ∀ r, (f r).projectId = r.projectId ∧ (f r).status = r.status ∧
      (f r).id = r.id ∧ priorityRank (f r) = priorityRank r := by
    intro r
    obtain ⟨note, hnote⟩ := hf r
    rw [hnote]
    exact ⟨rfl, rfl, rfl, rfl⟩
  rw [getAllActive, getAllActive, hrows, List.filter_map]
  have hfilter : ((fun r ↦ decide (r.projectId = projectId) && r.status.active) ∘ f) =
      fun r : MergeRequestRow ↦ decide (r.projectId = projectId) && r.status.active := by
    funext r
    simp only [Function.comp_apply, (hsame r).1, (hsame r).2.1]
  rw [hfilter]
  refine (List.map_insertionSort queueOrder queueOrder f _ ?_).symm
  intro a _ b _
  simp only [queueOrder, (hsame a).2.2, (hsame b).2.2]

end Positions

/-! ## The whole activation -/

/-- The row waits, and its class or its position is no more what it was in `db`. -/
def Shifted (projectId : ℕ) (db db' : Database) (r r' : MergeRequestRow) : Prop :=
  r.projectId = projectId ∧ r.status = .queued ∧
    (effectivePriority r'.isHotfix r'.isAutomated ≠ effectivePriority r.isHotfix r.isAutomated ∨
      getQueuePosition projectId r.iid db' ≠ getQueuePosition projectId r.iid db)

/-- What an activation does to the row `r`. -/
structure ActivatedAs (projectId : ℕ) (names : List String) (tokens : ℕ → Uuid) (db db' : Database)
    (r r' : MergeRequestRow) : Prop where
  frame : r' =
    { r with
      isAutomated := r'.isAutomated
      metadataVersion := r'.metadataVersion
      pendingNotification := r'.pendingNotification }
  elsewhere : r.projectId ≠ projectId ∨ r.status.active = false → r' = r
  owned : r.pendingCompletion.isSome = true →
    r' = { r with pendingNotification := r'.pendingNotification } ∧ (r.status ≠ .queued → r' = r)
  automated : r.projectId = projectId → r.status.active = true → r.pendingCompletion = none →
    r'.isAutomated = automatedBy names r.labels
  version : r'.metadataVersion =
    if r'.isAutomated = r.isAutomated then r.metadataVersion else r.metadataVersion + 1
  shifted : Shifted projectId db db' r r' → ∃ previous position,
    getQueuePosition projectId r.iid db = some previous ∧
    getQueuePosition projectId r.iid db' = some position ∧
    r'.pendingNotification =
      some
        { token := tokens position
          status :=
            if effectivePriority r'.isHotfix r'.isAutomated =
              effectivePriority r.isHotfix r.isAutomated then .positionChangedPriority
            else .priorityChanged
          oldPosition := previous }
  unshifted : ¬ Shifted projectId db db' r r' → r'.pendingNotification = r.pendingNotification

section Activation

variable {projectId : ℕ} {names : List String} {tokens : ℕ → Uuid} {db : Database}
  {r : MergeRequestRow}

/-- The database after the planned updates, before the feedback. -/
def reclassified (projectId : ℕ) (names : List String) (db : Database) : Database :=
  { db with mergeRequests := activatedTable projectId names db }

def activationFeedback (projectId : ℕ) (names : List String) (tokens : ℕ → Uuid) (db : Database) :
    ℕ → MergeRequestRow → Option PendingNotification :=
  priorityFeedback (waitingPositions (getAllActive projectId db))
    (activationPlan names (getAllActive projectId db)).changedPriority tokens

/-- The database after an activation that planned on it. -/
def activated (projectId : ℕ) (names : List String) (tokens : ℕ → Uuid) (db : Database) :
    Database :=
  { db with
    mergeRequests :=
      stageFeedback (activationFeedback projectId names tokens db)
        ((getAllActive projectId (reclassified projectId names db)).zipIdx 1)
        (activatedTable projectId names db) }

def finalRow (projectId : ℕ) (names : List String) (tokens : ℕ → Uuid) (db : Database) :
    MergeRequestRow → MergeRequestRow :=
  feedbackRow (activationFeedback projectId names tokens db)
    ((getAllActive projectId (reclassified projectId names db)).zipIdx 1)

theorem activated_rows_reclassified :
    (activated projectId names tokens db).mergeRequests.rows =
      (reclassified projectId names db).mergeRequests.rows.map
        (finalRow projectId names tokens db) := by
  apply stageFeedback_rows_eq
  have hids := nodup_ids projectId (reclassified projectId names db)
  rw [← List.zipIdx_map_fst 1 (getAllActive projectId _), List.map_map] at hids
  exact hids

theorem activated_rows :
    (activated projectId names tokens db).mergeRequests.rows =
      db.mergeRequests.rows.map fun r ↦
        finalRow projectId names tokens db (activatedRow projectId names r) := by
  rw [activated_rows_reclassified, reclassified, activatedTable_rows, List.map_map]
  rfl

theorem mem_reclassified (hr : r ∈ getAllActive projectId db) :
    activatedRow projectId names r ∈ getAllActive projectId (reclassified projectId names db) := by
  obtain ⟨hmem, hproject, hactive⟩ := mem_getAllActive.mp hr
  refine mem_getAllActive.mpr ⟨?_, ?_, ?_⟩
  · rw [reclassified, activatedTable_rows]
    exact List.mem_map_of_mem hmem
  · unfold activatedRow
    split_ifs <;> exact hproject
  · unfold activatedRow
    split_ifs <;> exact hactive

/-- The class changes with the automation flag, unless the row is a hotfix. -/
theorem mem_changedPriority (hr : r ∈ getAllActive projectId db) :
    r.iid ∈ (activationPlan names (getAllActive projectId db)).changedPriority ↔
      effectivePriority (activatedRow projectId names r).isHotfix
          (activatedRow projectId names r).isAutomated ≠
        effectivePriority r.isHotfix r.isAutomated := by
  obtain ⟨-, hproject, hactive⟩ := mem_getAllActive.mp hr
  have hlisted : r.iid ∈ (activationPlan names (getAllActive projectId db)).changedPriority ↔
      activates names r = true ∧ r.isHotfix = false := by
    simp only [activationPlan, List.mem_map, List.mem_filter]
    constructor
    · rintro ⟨s, ⟨⟨hs, hactivates⟩, hhotfix⟩, hiid⟩
      obtain rfl := iid_injective hs hr hiid
      exact ⟨hactivates, by simpa using hhotfix⟩
    · rintro ⟨hactivates, hhotfix⟩
      exact ⟨r, ⟨⟨hr, hactivates⟩, by simpa using hhotfix⟩, rfl⟩
  rw [hlisted, activatedRow]
  simp only [hproject, hactive, decide_true, Bool.true_and]
  cases hactivates : activates names r with
  | false => simp
  | true =>
      simp only [activates, Bool.and_eq_true, bne_iff_ne, ne_eq] at hactivates
      cases hhotfix : r.isHotfix <;> cases hautomated : r.isAutomated <;>
        simp_all [effectivePriority]

theorem activatedRow_eq (hproject : r.projectId = projectId) (hactive : r.status.active = true) :
    activatedRow projectId names r =
      if activates names r then
        { r with
          isAutomated := automatedBy names r.labels
          metadataVersion := r.metadataVersion + 1 }
      else r := by
  simp [activatedRow, hproject, hactive]

theorem activatedRow_metadataVersion (projectId : ℕ) (names : List String) (r : MergeRequestRow) :
    (activatedRow projectId names r).metadataVersion =
      if (activatedRow projectId names r).isAutomated = r.isAutomated then r.metadataVersion
      else r.metadataVersion + 1 := by
  unfold activatedRow
  by_cases hhit : (r.projectId = projectId && r.status.active && activates names r) = true
  · have hflip : automatedBy names r.labels ≠ r.isAutomated := by
      simp only [Bool.and_eq_true, activates, bne_iff_ne] at hhit
      exact Ne.symm hhit.2.2
    rw [if_pos hhit, if_neg hflip]
  · rw [if_neg hhit, if_pos rfl]

theorem activatedRow_iid (projectId : ℕ) (names : List String) (r : MergeRequestRow) :
    (activatedRow projectId names r).iid = r.iid := by
  unfold activatedRow
  split_ifs <;> rfl

theorem activatedRow_status (projectId : ℕ) (names : List String) (r : MergeRequestRow) :
    (activatedRow projectId names r).status = r.status := by
  unfold activatedRow
  split_ifs <;> rfl

theorem activatedRow_pendingNotification (projectId : ℕ) (names : List String)
    (r : MergeRequestRow) :
    (activatedRow projectId names r).pendingNotification = r.pendingNotification := by
  unfold activatedRow
  split_ifs <;> rfl

/-- The feedback for a row that had the position `previous` and now has `position`. -/
theorem activationFeedback_eq (hr : r ∈ getAllActive projectId db) {previous position : ℕ}
    (hprevious : getQueuePosition projectId r.iid db = some previous) :
    activationFeedback projectId names tokens db position (activatedRow projectId names r) =
      if r.status = .queued ∧
          (effectivePriority (activatedRow projectId names r).isHotfix
              (activatedRow projectId names r).isAutomated ≠
            effectivePriority r.isHotfix r.isAutomated ∨ position ≠ previous) then
        some
          { token := tokens position
            status :=
              if effectivePriority (activatedRow projectId names r).isHotfix
                  (activatedRow projectId names r).isAutomated =
                effectivePriority r.isHotfix r.isAutomated then .positionChangedPriority
              else .priorityChanged
            oldPosition := previous }
      else none := by
  rw [activationFeedback, priorityFeedback, activatedRow_iid, lookup_waitingPositions hr,
    activatedRow_status, hprevious]
  have hclass := @mem_changedPriority projectId names db r hr
  by_cases hqueued : r.status = .queued
  · by_cases hsame : effectivePriority (activatedRow projectId names r).isHotfix
        (activatedRow projectId names r).isAutomated = effectivePriority r.isHotfix r.isAutomated
    · have hunchanged := mt hclass.mp (not_not.mpr hsame)
      by_cases hposition : previous = position
      · simp [hqueued, hsame, hposition, hunchanged]
      · simp [hqueued, hsame, hposition, hunchanged, Ne.symm hposition]
    · have hchanged := hclass.mpr hsame
      simp [hqueued, hsame, hchanged]
  · simp [hqueued]

/-- Every row of the queue has its place after the activation too. -/
theorem getElem?_reclassified (hr : r ∈ getAllActive projectId db) :
    ∃ k, (getAllActive projectId (reclassified projectId names db))[k]? =
        some (activatedRow projectId names r) ∧
      getQueuePosition projectId r.iid (activated projectId names tokens db) = some (k + 1) := by
  obtain ⟨k, hk⟩ := List.getElem?_of_mem (@mem_reclassified projectId names db r hr)
  refine ⟨k, hk, ?_⟩
  have hqueue : getAllActive projectId (activated projectId names tokens db) =
      (getAllActive projectId (reclassified projectId names db)).map
        (finalRow projectId names tokens db) :=
    getAllActive_of_feedback activated_rows_reclassified fun row ↦ feedback_feedbackRow row
  have hplace : (getAllActive projectId (activated projectId names tokens db))[k]? =
      some (finalRow projectId names tokens db (activatedRow projectId names r)) := by
    rw [hqueue, List.getElem?_map, hk]
    rfl
  have hiid :
      (finalRow projectId names tokens db (activatedRow projectId names r)).iid = r.iid := by
    obtain ⟨note, hnote⟩ := feedback_feedbackRow (activatedRow projectId names r)
    exact (congrArg MergeRequestRow.iid hnote).trans (activatedRow_iid projectId names r)
  rw [← hiid]
  exact (position_of_getElem? hplace).1

/-- A row outside the queue of the project stays as it is. -/
theorem finalRow_of_not_mem (hr : r ∈ db.mergeRequests.rows)
    (hout : r ∉ getAllActive projectId db) :
    finalRow projectId names tokens db (activatedRow projectId names r) = r := by
  have hsame : activatedRow projectId names r = r := by
    rw [activatedRow, if_neg]
    intro hhit
    simp only [Bool.and_eq_true, decide_eq_true_eq] at hhit
    exact hout (mem_getAllActive.mpr ⟨hr, hhit.1.1, hhit.1.2⟩)
  rw [hsame]
  apply feedbackRow_of_not_mem
  intro s hs hid
  obtain ⟨hmem, hproject, hactive⟩ := mem_getAllActive.mp hs
  have hrow : r ∈ (reclassified projectId names db).mergeRequests.rows := by
    rw [reclassified, activatedTable_rows]
    exact List.mem_map.mpr ⟨r, hr, hsame⟩
  obtain rfl := (reclassified projectId names db).mergeRequests.eq_of_rowId_eq hmem hrow hid
  exact hout (mem_getAllActive.mpr ⟨hr, hproject, hactive⟩)

theorem activatedAs (hr : r ∈ db.mergeRequests.rows) :
    ActivatedAs projectId names tokens db (activated projectId names tokens db) r
      (finalRow projectId names tokens db (activatedRow projectId names r)) := by
  by_cases hin : r ∈ getAllActive projectId db
  · obtain ⟨-, hproject, hactive⟩ := mem_getAllActive.mp hin
    obtain ⟨j, hj⟩ := List.getElem?_of_mem hin
    have hprevious := (position_of_getElem? hj).1
    obtain ⟨k, hk, hposition⟩ := @getElem?_reclassified projectId names tokens db r hin
    have hfinal : finalRow projectId names tokens db (activatedRow projectId names r) =
        { activatedRow projectId names r with
          pendingNotification :=
            (activationFeedback projectId names tokens db (k + 1)
              (activatedRow projectId names r)).or r.pendingNotification } := by
      rw [← activatedRow_pendingNotification projectId names r]
      exact feedbackRow_of_getElem? (nodup_ids projectId (reclassified projectId names db)) hk
    have hfeedback := @activationFeedback_eq projectId names tokens db r hin _ (k + 1) hprevious
    have hshifted : Shifted projectId db (activated projectId names tokens db) r
        (finalRow projectId names tokens db (activatedRow projectId names r)) ↔
        r.status = .queued ∧
          (effectivePriority (activatedRow projectId names r).isHotfix
              (activatedRow projectId names r).isAutomated ≠
            effectivePriority r.isHotfix r.isAutomated ∨ k + 1 ≠ j + 1) := by
      rw [Shifted, hposition, hprevious, hfinal]
      simp only [hproject, true_and, ne_eq, Option.some.injEq]
    refine
      { frame := ?_, elsewhere := ?_, owned := ?_, automated := ?_, version := ?_, shifted := ?_
        unshifted := ?_ }
    · rw [hfinal, activatedRow_eq hproject hactive]
      split_ifs <;> rfl
    · rintro (hother | hinactive)
      · exact absurd hproject hother
      · rw [hactive] at hinactive
        cases hinactive
    · intro howned
      have hkept : activatedRow projectId names r = r := by
        rw [activatedRow_eq hproject hactive, if_neg]
        simp [activates, Option.isSome_iff_ne_none.mp howned]
      constructor
      · rw [hfinal, hkept]
      · intro hprocessing
        rw [if_neg fun h ↦ hprocessing h.1] at hfeedback
        rw [hfinal, hfeedback, hkept]
        rfl
    · intro _ _ hnone
      rw [hfinal, activatedRow_eq hproject hactive]
      split_ifs with hactivates
      · rfl
      · simpa [activates, hnone] using hactivates
    · rw [hfinal]
      exact activatedRow_metadataVersion projectId names r
    · intro h
      rw [if_pos (hshifted.mp h)] at hfeedback
      refine ⟨_, _, hprevious, hposition, ?_⟩
      rw [hfinal, hfeedback]
      rfl
    · intro h
      rw [if_neg (mt hshifted.mpr h)] at hfeedback
      rw [hfinal, hfeedback]
      rfl
  · rw [finalRow_of_not_mem hr hin]
    have hwaits : ¬ Shifted projectId db (activated projectId names tokens db) r r := by
      rintro ⟨hproject, hqueued, -⟩
      exact hin (mem_getAllActive.mpr ⟨hr, hproject, by rw [hqueued]; rfl⟩)
    exact
      { frame := rfl
        elsewhere := fun _ ↦ rfl
        owned := fun _ ↦ ⟨rfl, fun _ ↦ rfl⟩
        automated := fun hproject hactive _ ↦
          absurd (mem_getAllActive.mpr ⟨hr, hproject, hactive⟩) hin
        version := (if_pos rfl).symm
        shifted := fun h ↦ absurd h hwaits
        unshifted := fun _ ↦ rfl }

/-- An activation that planned on the table as it is goes through. -/
theorem activatePriorities_eq {qm : QueueManager} {policy : ProjectConfig}
    (hpolicy : (qm.projectPolicies.bind fun policies ↦ policies projectId) = some policy) :
    ∃ summary, qm.activatePriorities projectId tokens db =
      .ok (summary, activated projectId policy.automationLabels tokens db) := by
  rw [QueueManager.activatePriorities, activateFrom, hpolicy]
  refine ⟨_, bind_eq_ok.mpr ⟨_, executePlan projectId policy.automationLabels db, rfl⟩⟩

/-- After an activation every row of the queue is as the policy says. -/
theorem activates_of_activated {r' : MergeRequestRow}
    (hr' : r' ∈ getAllActive projectId (activated projectId names tokens db)) :
    activates names r' = false := by
  obtain ⟨hmem, hproject, hactive⟩ := mem_getAllActive.mp hr'
  rw [activated_rows] at hmem
  obtain ⟨r, hr, rfl⟩ := List.mem_map.mp hmem
  have has := @activatedAs projectId names tokens db r hr
  generalize finalRow projectId names tokens db (activatedRow projectId names r) = r' at *
  obtain ⟨hframe, -, -, hautomated, -, -, -⟩ := has
  rw [hframe] at hproject hactive ⊢
  cases hpending : r.pendingCompletion with
  | some payload => simp [activates]
  | none => simp [activates, hautomated hproject hactive hpending]

theorem activatedTable_of_settled (h : ∀ r ∈ getAllActive projectId db, activates names r = false) :
    activationPlan names (getAllActive projectId db) =
        { activationPlan names (getAllActive projectId db) with
          updates := []
          changedPriority := [] } ∧
      reclassified projectId names db = db := by
  have hnone : (getAllActive projectId db).filter (activates names) = [] :=
    List.filter_eq_nil_iff.mpr fun r hr ↦ by simp [h r hr]
  have hplan : activationPlan names (getAllActive projectId db) =
      { activationPlan names (getAllActive projectId db) with
        updates := []
        changedPriority := [] } := by
    simp [activationPlan, hnone]
  refine ⟨hplan, ?_⟩
  rw [reclassified, activatedTable, hplan]
  rfl

/-- Nothing is staged for a queue that did not change. -/
theorem feedback_of_settled {entry : MergeRequestRow × ℕ}
    (hentry : entry ∈ (getAllActive projectId db).zipIdx 1) :
    priorityFeedback (waitingPositions (getAllActive projectId db)) [] tokens entry.2 entry.1 =
      none := by
  obtain ⟨hone, hget⟩ := List.mem_zipIdx_iff_le_and_getElem?_sub.mp hentry
  rw [priorityFeedback, lookup_waitingPositions (List.mem_of_getElem? hget),
    (position_of_getElem? hget).1, Nat.sub_add_cancel hone]
  by_cases hqueued : entry.1.status = .queued <;> simp [hqueued]

/-- An activated table needs no activation. -/
theorem activated_of_settled (h : ∀ r ∈ getAllActive projectId db, activates names r = false) :
    activated projectId names tokens db = db := by
  obtain ⟨hplan, hsame⟩ := activatedTable_of_settled h
  rw [activated, hsame, activationFeedback, hplan]
  rw [stageFeedback_eq_self fun entry hentry ↦ feedback_of_settled hentry]
  exact hsame

/-- Somebody else reclassified, took over or removed the row since it was planned. -/
def Overtaken (projectId : ℕ) (db : Database) (r : MergeRequestRow) : Prop :=
  ∀ s ∈ db.mergeRequests.rows, s.projectId = projectId → s.id = r.id →
    s.metadataVersion = r.metadataVersion → s.pendingCompletion.isSome = true

/-- What an activation with the automation labels `names` does to the table. -/
structure Activates (projectId : ℕ) (names : List String) (tokens : ℕ → Uuid)
    (db db' : Database) : Prop where
  history : db'.history = db.history
  nextId : db'.mergeRequests.nextId = db.mergeRequests.nextId
  rows : ∃ f : MergeRequestRow → MergeRequestRow,
    db'.mergeRequests.rows = db.mergeRequests.rows.map f ∧
      ∀ r ∈ db.mergeRequests.rows, ActivatedAs projectId names tokens db db' r (f r)

theorem activates_activated (projectId : ℕ) (names : List String) (tokens : ℕ → Uuid)
    (db : Database) :
    Activates projectId names tokens db (activated projectId names tokens db) where
  history := rfl
  nextId := by
    rw [activated, stageFeedback_eq_foldl, KeyedTable.foldl_updateWhere_nextId]
    exact activatedTable_nextId
  rows := ⟨_, activated_rows, fun _ hr ↦ activatedAs hr⟩

/-- The activation raises exactly where a planned row was overtaken. -/
theorem activateFrom_raises_iff {qm : QueueManager} {policy : ProjectConfig} {planned : Database}
    (hpolicy : (qm.projectPolicies.bind fun policies ↦ policies projectId) = some policy) :
    qm.activateFrom projectId tokens planned db =
        .error (.queueError "Priority activation conflicted with a runtime writer") ↔
      ∃ r ∈ planned.mergeRequests.rows, r.projectId = projectId ∧ r.status.active = true ∧
        activates policy.automationLabels r = true ∧ Overtaken projectId db r := by
  rw [activateFrom, hpolicy]
  constructor
  · intro h
    by_contra hnone
    push Not at hnone
    have hfound : ∀ update ∈
        (activationPlan policy.automationLabels (getAllActive projectId planned)).updates,
        ∃ s ∈ db.mergeRequests.rows, update.selects projectId s = true := by
      intro update hupdate
      obtain ⟨r, hr, hactivates, rfl⟩ := mem_plan.mp hupdate
      obtain ⟨hmem, hproject, hactive⟩ := mem_getAllActive.mp hr
      have hcurrent := hnone r hmem hproject hactive hactivates
      unfold Overtaken at hcurrent
      push Not at hcurrent
      obtain ⟨s, hs, hsproject, hid, hversion, hfree⟩ := hcurrent
      exact ⟨s, hs, by simpa [ActivationUpdate.selects, hsproject, hid, hversion] using hfree⟩
    obtain ⟨outcome, houtcome⟩ : ∃ outcome, qm.activateFrom projectId tokens planned db =
        .ok outcome := by
      rw [activateFrom, hpolicy]
      exact ⟨_, bind_eq_ok.mpr ⟨_, executeUpdates_eq nodup_plan hfound, rfl⟩⟩
    rw [activateFrom, hpolicy] at houtcome
    cases h.symm.trans houtcome
  · rintro ⟨r, hr, hproject, hactive, hactivates, hovertaken⟩
    have hplanned := mem_plan.mpr
      ⟨r, mem_getAllActive.mpr ⟨hr, hproject, hactive⟩, hactivates, rfl⟩
    have hmissing : ∀ s ∈ db.mergeRequests.rows, ActivationUpdate.selects projectId
        ⟨automatedBy policy.automationLabels r.labels, r.id, r.metadataVersion⟩ s = false := by
      intro s hs
      by_contra hselects
      simp only [ActivationUpdate.selects, Bool.not_eq_false, Bool.and_eq_true,
        decide_eq_true_eq] at hselects
      obtain ⟨⟨⟨hsproject, hid⟩, hversion⟩, hfree⟩ := hselects
      have howned := hovertaken s hs hsproject hid hversion
      rw [Option.isSome_iff_ne_none] at howned
      exact howned (Option.isNone_iff_eq_none.mp hfree)
    have hconflict := executeUpdates_conflict nodup_plan hplanned hmissing
    simp only
    rw [show selectActiveQueue planned projectId = getAllActive projectId planned from rfl,
      hconflict]
    rfl

end Activation

/-- The activation of a policy reclassifies the rows that nobody owns, tells the
waiting rows that shifted, needs no repetition, and leaves no trace where a planned
row was overtaken. -/
theorem activatePriorities_correct {qm : QueueManager} {projectId : ℕ} {policy : ProjectConfig}
    (hpolicy : (qm.projectPolicies.bind fun policies ↦ policies projectId) = some policy)
    (tokens : ℕ → Uuid) (db : Database) :
    (∃ summary db', qm.activatePriorities projectId tokens db = .ok (summary, db') ∧
      Activates projectId policy.automationLabels tokens db db' ∧
      ∀ tokens', ∃ summary',
        qm.activatePriorities projectId tokens' db' = .ok (summary', db')) ∧
    ∀ planned, (∃ r ∈ planned.mergeRequests.rows, r.projectId = projectId ∧
        r.status.active = true ∧ activates policy.automationLabels r = true ∧
        Overtaken projectId db r) →
      qm.activateFrom projectId tokens planned db =
          .error (.queueError "Priority activation conflicted with a runtime writer") ∧
        committed db (qm.activateFrom projectId tokens planned db) = db := by
  constructor
  · obtain ⟨summary, hfirst⟩ := @activatePriorities_eq projectId tokens db qm policy hpolicy
    refine ⟨summary, _, hfirst, activates_activated _ _ _ _, fun tokens' ↦ ?_⟩
    obtain ⟨summary', hsecond⟩ := @activatePriorities_eq projectId tokens'
      (activated projectId policy.automationLabels tokens db) qm policy hpolicy
    refine ⟨summary', ?_⟩
    rw [hsecond, activated_of_settled fun r ↦ activates_of_activated]
  · intro planned hovertaken
    have hraises : qm.activateFrom projectId tokens planned db =
        .error (.queueError "Priority activation conflicted with a runtime writer") :=
      (activateFrom_raises_iff hpolicy).mpr hovertaken
    exact ⟨hraises, by rw [hraises]; rfl⟩

/-! ## A policy with one automation label -/

def automationPolicy : ProjectConfig :=
  { hotfixLabel := "hotfix", automationLabels := ["dependencies"] }

def automationManager : QueueManager := { projectPolicies := some fun _ ↦ some automationPolicy }

/-- Two merge requests wait, the first one with a label that the policy names. -/
def unclassifiedDatabase : Database :=
  insertMr
    (insertMr .empty { sampleParams with labels := ["dependencies"] } false false 0)
    { sampleParams with iid := 8 } false false 0

theorem activatePriorities_unclassified :
    (∃ summary db', automationManager.activatePriorities 1 id unclassifiedDatabase =
        .ok (summary, db') ∧
      Activates 1 ["dependencies"] id unclassifiedDatabase db' ∧
      ∀ tokens', ∃ summary', automationManager.activatePriorities 1 tokens' db' =
        .ok (summary', db')) ∧
    ∀ planned, (∃ r ∈ planned.mergeRequests.rows, r.projectId = 1 ∧
        r.status.active = true ∧ activates ["dependencies"] r = true ∧
        Overtaken 1 unclassifiedDatabase r) →
      automationManager.activateFrom 1 id planned unclassifiedDatabase =
          .error (.queueError "Priority activation conflicted with a runtime writer") ∧
        committed unclassifiedDatabase
          (automationManager.activateFrom 1 id planned unclassifiedDatabase) =
            unclassifiedDatabase :=
  @activatePriorities_correct automationManager 1 automationPolicy rfl id unclassifiedDatabase

/-- The second one waits although its outcome is frozen. -/
def ownedDatabase : Database :=
  committed unclassifiedDatabase
    (prepareCompletion 1 8
      { state := .queued
        notificationStatus := .genericFailure
        context := []
        outcome := { historyStatus := .failed } } 0 unclassifiedDatabase)

/-- The first one is being tested when the planned updates are written. -/
def testingDatabase : Database :=
  committed unclassifiedDatabase (updateMrState 1 7 .testing {} 0 unclassifiedDatabase)

/-- A waiting row with a frozen outcome gets feedback, and a writer that leaves the
version alone goes unnoticed. -/
theorem activation_feeds_owned_and_overlooks_writers :
    (¬ ∀ db summary db', automationManager.activatePriorities 1 id db = .ok (summary, db') →
      ∀ r ∈ db.mergeRequests.rows, r.pendingCompletion.isSome = true →
        r ∈ db'.mergeRequests.rows) ∧
    ¬ ∀ planned db, (∃ r ∈ planned.mergeRequests.rows, r.projectId = 1 ∧
        r.status.active = true ∧ activates ["dependencies"] r = true ∧
        r ∉ db.mergeRequests.rows) →
      ∃ e, automationManager.activateFrom 1 id planned db = .error e := by
  constructor
  · intro hclaim
    have hfed : ∃ r ∈ ownedDatabase.mergeRequests.rows, r.pendingCompletion.isSome = true ∧
        r ∉ (activated 1 ["dependencies"] id ownedDatabase).mergeRequests.rows := by
      decide +kernel
    obtain ⟨r, hr, howned, hfed⟩ := hfed
    obtain ⟨summary, hdone⟩ :=
      @activatePriorities_eq 1 id ownedDatabase automationManager automationPolicy rfl
    exact hfed (hclaim _ _ _ hdone r hr howned)
  · intro hclaim
    have hchanged : ∃ r ∈ unclassifiedDatabase.mergeRequests.rows, r.projectId = 1 ∧
        r.status.active = true ∧ activates ["dependencies"] r = true ∧
        r ∉ testingDatabase.mergeRequests.rows := by
      decide +kernel
    obtain ⟨e, hraises⟩ := hclaim unclassifiedDatabase testingDatabase hchanged
    have hdone : (automationManager.activateFrom 1 id unclassifiedDatabase
        testingDatabase).toOption.isSome = true := by
      decide +kernel
    rw [hraises] at hdone
    cases hdone

end MergeQueue
