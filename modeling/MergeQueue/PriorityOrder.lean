import MergeQueue.QueueRuns
import MergeQueue.Lib.RankedQueue

/-!
# One priority order

The queue manager orders the active rows by a rank that the database computes.
The repository has its own queries: a sorted selection, the first waiting row,
and a position that counts the rows before one, by a rank that Python computes.
-/

namespace MergeQueue

open QueueManager RankedQueue

/-! ## The queries -/

inductive QueuePriority
  | hotfix
  | ordinary
  | automated
  deriving DecidableEq, Repr

def effectivePriority (isHotfix isAutomated : Bool) : QueuePriority :=
  if isHotfix then .hotfix else if isAutomated then .automated else .ordinary

/-- The dictionary that `get_position` looks the priority up in. -/
def QueuePriority.rank : QueuePriority → ℕ
  | hotfix => 0
  | ordinary => 1
  | automated => 2

/-- `_SELECT_NEXT_MR_SQL`. -/
def selectNextMr (db : Database) (projectId : ℕ) : Option MergeRequestRow :=
  ((db.mergeRequests.rows.filter fun r ↦
    r.status = .queued && r.projectId = projectId).insertionSort queueOrder).head?

namespace MergeRequestRepository

def getByIid (projectId iid : ℕ) (db : Database) : Option MergeRequestRow :=
  db.mergeRequests.rows.find? fun r ↦ r.projectId = projectId && r.iid = iid

def getAllActive (projectId : ℕ) (db : Database) : List MergeRequestRow :=
  (db.mergeRequests.rows.filter fun r ↦ r.projectId = projectId && r.status.active).insertionSort
    queueOrder

def getNextQueued (projectId : ℕ) (db : Database) : Option MergeRequestRow :=
  ((db.mergeRequests.rows.filter fun r ↦
    r.projectId = projectId && r.status = .queued).insertionSort queueOrder).head?

/-- One more than the number of active rows that are ahead. -/
def getPosition (projectId iid : ℕ) (db : Database) : Option ℕ :=
  match getByIid projectId iid db with
  | none => none
  | some mr =>
      if mr.status.active = false then none
      else
        let rank := (effectivePriority mr.isHotfix mr.isAutomated).rank
        some (db.mergeRequests.rows.countP (fun r ↦
          r.status.active && r.projectId = projectId &&
            (decide (rank > priorityRank r) || (decide (priorityRank r ∈ [rank]) &&
              decide (r.id < mr.id)))) + 1)

end MergeRequestRepository

open MergeRequestRepository

/-! ## The order -/

/-- The row `a` is served before the row `b`. -/
def Precedes (a b : MergeRequestRow) : Prop :=
  priorityRank a < priorityRank b ∨ (priorityRank a = priorityRank b ∧ a.id < b.id)

instance : DecidableRel Precedes := fun _ _ ↦ inferInstanceAs (Decidable (_ ∨ (_ ∧ _)))

/-- The rank of the database is the one that the repository computes. -/
theorem rank_effectivePriority (r : MergeRequestRow) :
    (effectivePriority r.isHotfix r.isAutomated).rank = priorityRank r := by
  cases hhotfix : r.isHotfix <;> cases hautomated : r.isAutomated <;>
    simp [effectivePriority, priorityRank, hhotfix, hautomated, QueuePriority.rank]

theorem Precedes.not_symm {a b : MergeRequestRow} (h : Precedes a b) : ¬ Precedes b a := by
  unfold Precedes at *
  omega

instance : Std.Total queueOrder := ⟨fun a b ↦ by
  unfold queueOrder
  omega⟩

instance : IsTrans MergeRequestRow queueOrder := ⟨fun a b c hab hbc ↦ by
  unfold queueOrder at *
  omega⟩

section Table

variable {db : Database} {projectId iid : ℕ} {r s : MergeRequestRow}

/-- No two rows of the table are at one place of the order. -/
theorem queueOrder_antisymm (hr : r ∈ db.mergeRequests.rows) (hs : s ∈ db.mergeRequests.rows)
    (hrs : queueOrder r s) (hsr : queueOrder s r) : r = s := by
  apply db.mergeRequests.eq_of_rowId_eq hr hs
  simp only [rowId_mergeRequestRow]
  unfold queueOrder at *
  omega

theorem mem_getAllActive :
    r ∈ getAllActive projectId db ↔
      r ∈ db.mergeRequests.rows ∧ r.projectId = projectId ∧ r.status.active = true := by
  simp [getAllActive, List.mem_insertionSort]

theorem nodup_rows (db : Database) : db.mergeRequests.rows.Nodup :=
  db.mergeRequests.ordered.imp fun hlt hsame ↦ by
    subst hsame
    exact lt_irrefl _ hlt

theorem nodup_getAllActive (projectId : ℕ) (db : Database) : (getAllActive projectId db).Nodup :=
  (List.perm_insertionSort queueOrder _).nodup_iff.mpr ((nodup_rows db).filter _)

theorem pairwise_getAllActive (projectId : ℕ) (db : Database) :
    (getAllActive projectId db).Pairwise Precedes := by
  have hsorted := List.pairwise_insertionSort queueOrder
    (db.mergeRequests.rows.filter fun r ↦ r.projectId = projectId && r.status.active)
  apply (hsorted.and (nodup_getAllActive projectId db)).imp_of_mem
  rintro a b ha hb ⟨hle, hne⟩
  have hid : a.id ≠ b.id := fun hid ↦
    hne (db.mergeRequests.eq_of_rowId_eq (mem_getAllActive.mp ha).1 (mem_getAllActive.mp hb).1 hid)
  unfold queueOrder at hle
  unfold Precedes
  omega

theorem strict_precedes (l : List MergeRequestRow) : Strict Precedes l :=
  fun _ _ _ _ h ↦ h.not_symm

/-! ## The queries agree -/

theorem getActiveQueue_eq (projectId : ℕ) (db : Database) :
    getActiveQueue projectId db = (getAllActive projectId db).map rowToQueueItem := rfl

theorem filter_queued (projectId : ℕ) (db : Database) :
    (db.mergeRequests.rows.filter fun r ↦ r.projectId = projectId && r.status = .queued) =
      (db.mergeRequests.rows.filter fun r ↦ r.projectId = projectId && r.status.active).filter
        fun r ↦ r.status = .queued := by
  rw [List.filter_filter]
  apply List.filter_congr
  intro r _
  by_cases hqueued : r.status = .queued
  · simp [hqueued, Status.active]
  · simp [hqueued]

theorem getNextQueued_eq (projectId : ℕ) (db : Database) :
    getNextQueued projectId db = (getAllActive projectId db).find? fun r ↦ r.status = .queued := by
  rw [getNextQueued, filter_queued, getAllActive, find?_insertionSort]
  intro a ha b hb
  exact queueOrder_antisymm (List.mem_of_mem_filter ha) (List.mem_of_mem_filter hb)

theorem getNextMr_eq (projectId : ℕ) (db : Database) :
    getNextMr projectId db = (getNextQueued projectId db).map rowToQueueItem := by
  rw [getNextMr, getActiveQueue_eq, List.find?_map, getNextQueued_eq]
  rfl

theorem selectNextMr_eq (projectId : ℕ) (db : Database) :
    selectNextMr db projectId = getNextQueued projectId db := by
  rw [selectNextMr, getNextQueued]
  congr 3
  funext r
  exact Bool.and_comm _ _

/-- The rows that `get_position` counts are the active ones before the given one. -/
theorem getPosition_of_mem (hr : r ∈ getAllActive projectId db) :
    getPosition projectId r.iid db =
      some ((getAllActive projectId db).countP (fun s ↦ Precedes s r) + 1) := by
  obtain ⟨hmem, hproject, hactive⟩ := mem_getAllActive.mp hr
  have hfind : getByIid projectId r.iid db = some r := by
    have hkey := KeyedTable.byKey_eq_some_iff.mpr ⟨hmem, rfl⟩
    rw [← hkey, getByIid, KeyedTable.byKey]
    congr 1
    funext s
    simp [hproject]
  rw [getPosition, hfind]
  simp only [hactive, Bool.true_eq_false, if_false, Option.some.injEq, Nat.add_right_cancel_iff]
  rw [getAllActive, (List.perm_insertionSort queueOrder _).countP_eq, List.countP_filter]
  apply List.countP_congr
  intro s _
  rw [rank_effectivePriority]
  simp only [Bool.and_eq_true, Bool.or_eq_true, decide_eq_true_eq, gt_iff_lt, List.mem_singleton]
  unfold Precedes
  tauto

theorem getPosition_eq_none_iff :
    getPosition projectId iid db = none ↔
      ∀ r ∈ getAllActive projectId db, r.iid ≠ iid := by
  constructor
  · rintro h r hr rfl
    rw [getPosition_of_mem hr] at h
    cases h
  · intro h
    rw [getPosition]
    cases hfind : getByIid projectId iid db with
    | none => rfl
    | some mr =>
        have hkey := List.find?_some hfind
        simp only [Bool.and_eq_true, decide_eq_true_eq] at hkey
        have hinactive : mr.status.active = false := by
          by_contra hactive
          exact h mr (mem_getAllActive.mpr ⟨List.mem_of_find?_eq_some hfind, hkey.1,
            by simpa using hactive⟩) hkey.2
        simp [hinactive]

theorem iid_injective (ha : r ∈ getAllActive projectId db) (hb : s ∈ getAllActive projectId db)
    (h : r.iid = s.iid) : r = s := by
  obtain ⟨hr, hproject, -⟩ := mem_getAllActive.mp ha
  obtain ⟨hs, hproject', -⟩ := mem_getAllActive.mp hb
  apply db.mergeRequests.eq_of_key_eq hr hs
  simp [h, hproject, hproject']

/-- The row in place `k` of the queue, counted from zero, has the position `k + 1`. -/
theorem position_of_getElem? {k : ℕ} (h : (getAllActive projectId db)[k]? = some r) :
    getQueuePosition projectId r.iid db = some (k + 1) ∧
      getPosition projectId r.iid db = some (k + 1) := by
  constructor
  · rw [getQueuePosition, getActiveQueue_eq, List.findIdx?_map]
    have hfind := findIdx?_of_getElem? (fun a ha b hb ↦ iid_injective ha hb)
      (nodup_getAllActive projectId db) h
    exact congrArg (Option.map (· + 1)) hfind
  · rw [getPosition_of_mem (List.mem_of_getElem? h),
      countP_of_getElem? (pairwise_getAllActive projectId db) (strict_precedes _) h]

theorem getQueuePosition_eq (projectId iid : ℕ) (db : Database) :
    getQueuePosition projectId iid db = getPosition projectId iid db := by
  by_cases h : ∃ r ∈ getAllActive projectId db, r.iid = iid
  · obtain ⟨r, hr, rfl⟩ := h
    obtain ⟨k, hk⟩ := List.getElem?_of_mem hr
    rw [(position_of_getElem? hk).1, (position_of_getElem? hk).2]
  · push Not at h
    rw [getPosition_eq_none_iff.mpr h, getQueuePosition, getActiveQueue_eq, List.findIdx?_map,
      Option.map_eq_none_iff, List.findIdx?_eq_none_iff]
    intro r hr
    exact decide_eq_false (h r hr)

end Table

/-- All queries serve the active rows of a project in one order, and number them
from one without gaps. -/
structure OneOrder (projectId : ℕ) (db : Database) : Prop where
  activeQueue : getActiveQueue projectId db = (getAllActive projectId db).map rowToQueueItem
  nextMr : getNextMr projectId db = (getNextQueued projectId db).map rowToQueueItem
  nextQueued : getNextQueued projectId db =
    (getAllActive projectId db).find? fun r ↦ r.status = .queued
  positions : ∀ iid, getQueuePosition projectId iid db = getPosition projectId iid db
  members : ∀ r, r ∈ getAllActive projectId db ↔
    r ∈ db.mergeRequests.rows ∧ r.projectId = projectId ∧ r.status.active = true
  sorted : (getAllActive projectId db).Pairwise Precedes
  total : ∀ r ∈ db.mergeRequests.rows, ∀ s ∈ db.mergeRequests.rows,
    r ≠ s → (Precedes r s ∧ ¬ Precedes s r) ∨ (Precedes s r ∧ ¬ Precedes r s)
  numbered : ∀ k r, (getAllActive projectId db)[k]? = some r →
    getQueuePosition projectId r.iid db = some (k + 1)

theorem oneOrder (projectId : ℕ) (db : Database) : OneOrder projectId db where
  activeQueue := getActiveQueue_eq projectId db
  nextMr := getNextMr_eq projectId db
  nextQueued := getNextQueued_eq projectId db
  positions := fun iid ↦ getQueuePosition_eq projectId iid db
  members := fun _ ↦ mem_getAllActive
  sorted := pairwise_getAllActive projectId db
  total := by
    intro r hr s hs hne
    have hid : r.id ≠ s.id := fun hid ↦ hne (db.mergeRequests.eq_of_rowId_eq hr hs hid)
    unfold Precedes
    omega
  numbered := fun _ _ h ↦ (position_of_getElem? h).1

/-! ## What changes the order -/

/-- The row is in the queue of its project. -/
def InQueue (db : Database) (r : MergeRequestRow) : Prop :=
  r ∈ db.mergeRequests.rows ∧ r.status.active = true

namespace QueueOp

/-- A change of labels or the activation of priorities. -/
def reclassifies : QueueOp → Bool
  | updateHotfixStatus .. | activatePriorities .. => true
  | _ => false

/-- The merge request whose status the call writes, and that status. -/
def writesStatus : QueueOp → Option (ℕ × ℕ × Status)
  | updateMrState projectId mrIid state _ => some (projectId, mrIid, state)
  | prepareCompletion projectId mrIid request => some (projectId, mrIid, request.state)
  | _ => none

/-- The call gives an active status to a row that is out of the queue. -/
def Revives (op : QueueOp) (db : Database) : Prop :=
  ∃ projectId mrIid state, op.writesStatus = some (projectId, mrIid, state) ∧
    state.active = true ∧
    ∃ r ∈ db.mergeRequests.rows, r.projectId = projectId ∧ r.iid = mrIid ∧
      r.status.active = false ∧ r.pendingCompletion = none

/-- The call keeps the order of the rows that stay, unless it reclassifies them, and
puts a row that enters behind the others of its class. -/
structure KeepsOrder (op : QueueOp) (db db' : Database) : Prop where
  relative : op.reclassifies = false → ∀ r s r' s', InQueue db r → InQueue db s →
    InQueue db' r' → InQueue db' s' → r'.id = r.id → s'.id = s.id →
    (Precedes r' s' ↔ Precedes r s)
  entry : ∀ r' s s', InQueue db' r' → (∀ r, InQueue db r → r.id ≠ r'.id) → InQueue db s →
    InQueue db' s' → s'.id = s.id → priorityRank s' = priorityRank r' → Precedes s' r'

theorem KeepsOrder.refl (op : QueueOp) (db : Database) : op.KeepsOrder db db where
  relative := by
    intro _ r s r' s' hr hs hr' hs' hrid hsid
    rw [db.mergeRequests.eq_of_rowId_eq hr'.1 hr.1 hrid,
      db.mergeRequests.eq_of_rowId_eq hs'.1 hs.1 hsid]
  entry := fun r' _ _ hr' hnew _ _ _ _ ↦ absurd rfl (hnew r' hr')

/-- The class, the labels and their version are the same. -/
structure MetadataKept (r r' : MergeRequestRow) : Prop where
  isHotfix : r'.isHotfix = r.isHotfix
  isAutomated : r'.isAutomated = r.isAutomated
  labels : r'.labels = r.labels
  metadataVersion : r'.metadataVersion = r.metadataVersion

theorem MetadataKept.refl (r : MergeRequestRow) : MetadataKept r r := ⟨rfl, rfl, rfl, rfl⟩

/-- Only a change of labels and the activation of priorities change the class of a row. -/
theorem metadataKept_of_rowChange {now : ℤ} {op : QueueOp} {r r' : MergeRequestRow}
    (h : RowChange now op r r') (hop : op.reclassifies = false) : MetadataKept r r' := by
  cases op with
  | updateHotfixStatus | activatePriorities => cases hop
  | removeFromQueue | markStaleWarningSent =>
      rcases h with rfl | ⟨-, -, rfl⟩ <;> exact ⟨rfl, rfl, rfl, rfl⟩
  | updateMrState | saveCompletionProgress =>
      rcases h with rfl | ⟨-, -, -, rfl⟩ <;> exact ⟨rfl, rfl, rfl, rfl⟩
  | deferRequeue | cancelRequeue =>
      rcases h with rfl | ⟨-, _, _, -, rfl⟩ <;> exact ⟨rfl, rfl, rfl, rfl⟩
  | refreshRequeueLabels =>
      rcases h with rfl | ⟨-, _, _, -, -, rfl⟩ <;> exact ⟨rfl, rfl, rfl, rfl⟩
  | prepareCompletion =>
      rcases h with rfl | ⟨-, -, -, -, rfl⟩ <;> exact ⟨rfl, rfl, rfl, rfl⟩
  | clearPendingNotification | stageCompletionPositions =>
      obtain ⟨note, rfl⟩ := h
      exact ⟨rfl, rfl, rfl, rfl⟩
  | finalizeCompletion =>
      obtain ⟨note, ignored, rfl⟩ := h
      exact ⟨rfl, rfl, rfl, rfl⟩
  | addToQueue | getQueueItem | getActiveQueue | getPendingCompletions | getStaleMrs | getMrState
  | completeMr | cleanupOldEntries =>
      cases h
      exact MetadataKept.refl r

theorem MetadataKept.rank {r r' : MergeRequestRow} (h : MetadataKept r r') :
    priorityRank r' = priorityRank r := by
  rw [priorityRank, priorityRank, h.isHotfix, h.isAutomated]

/-- A row is in the queue after a call where it was before, or where the call wrote
an active status. -/
theorem active_of_rowChange {now : ℤ} {op : QueueOp} {r r' : MergeRequestRow}
    (h : RowChange now op r r') (hactive : r'.status.active = true) :
    r.status.active = true ∨
      (op.writesStatus = some (r.projectId, r.iid, r'.status) ∧ r.pendingCompletion = none) := by
  cases op with
  | removeFromQueue =>
      rcases h with rfl | ⟨-, -, rfl⟩
      · exact Or.inl hactive
      · cases hactive
  | markStaleWarningSent =>
      rcases h with rfl | ⟨-, -, rfl⟩
      · exact Or.inl hactive
      · exact Or.inl hactive
  | saveCompletionProgress =>
      rcases h with rfl | ⟨-, -, -, rfl⟩
      · exact Or.inl hactive
      · exact Or.inl hactive
  | updateMrState =>
      rcases h with rfl | ⟨rfl, rfl, hnone, rfl⟩
      · exact Or.inl hactive
      · exact Or.inr ⟨rfl, hnone⟩
  | deferRequeue | cancelRequeue =>
      rcases h with rfl | ⟨-, _, _, -, rfl⟩
      · exact Or.inl hactive
      · exact Or.inl hactive
  | refreshRequeueLabels =>
      rcases h with rfl | ⟨-, _, _, -, -, rfl⟩
      · exact Or.inl hactive
      · exact Or.inl hactive
  | prepareCompletion =>
      rcases h with rfl | ⟨rfl, rfl, -, hnone, rfl⟩
      · exact Or.inl hactive
      · exact Or.inr ⟨rfl, hnone⟩
  | clearPendingNotification | stageCompletionPositions =>
      obtain ⟨note, rfl⟩ := h
      exact Or.inl hactive
  | finalizeCompletion =>
      obtain ⟨note, ignored, rfl⟩ := h
      exact Or.inl hactive
  | updateHotfixStatus | activatePriorities =>
      obtain ⟨_, _, _, _, _, _, rfl, -⟩ := h
      exact Or.inl hactive
  | addToQueue | getQueueItem | getActiveQueue | getPendingCompletions | getStaleMrs | getMrState
  | completeMr | cleanupOldEntries =>
      cases h
      exact Or.inl hactive

theorem exec_keepsOrder {qm : QueueManager} {now : ℤ} {tokens : ℕ → Uuid} {op : QueueOp}
    {db db' : Database} {answer : op.Answer} (h : op.exec qm now tokens db = .ok (answer, db'))
    (hrevive : ¬op.Revives db) : op.KeepsOrder db db' := by
  have hevolves := exec_evolves h
  constructor
  · intro hop r s r' s' hr hs hr' hs' hrid hsid
    have hrank := (metadataKept_of_rowChange (hevolves.of_rowId_eq hr.1 hr'.1 hrid) hop).rank
    have hsank := (metadataKept_of_rowChange (hevolves.of_rowId_eq hs.1 hs'.1 hsid) hop).rank
    unfold Precedes
    rw [hrank, hsank, hrid, hsid]
  · intro r' s s' hr' hnew hs hs' hsid hrank
    have hfresh : db.mergeRequests.nextId ≤ r'.id := by
      rcases hevolves.source r' hr'.1 with ⟨r, hr, hid, hkey, hchange⟩ | ⟨hfresh, -⟩
      · rcases active_of_rowChange hchange hr'.2 with hactive | ⟨hwrite, hnone⟩
        · exact absurd hid.symm (hnew r ⟨hr, hactive⟩)
        · by_cases hactive : r.status.active = true
          · exact absurd hid.symm (hnew r ⟨hr, hactive⟩)
          · exact absurd ⟨_, _, _, hwrite, hr'.2, r, hr, rfl, rfl, by simpa using hactive, hnone⟩
              hrevive
      · exact hfresh
    have hold : s.id < db.mergeRequests.nextId := db.mergeRequests.below s hs.1
    refine Or.inr ⟨hrank, ?_⟩
    rw [hsid]
    omega

end QueueOp

/-! ## Every run -/

/-- The database after some calls from an empty one. -/
def databaseAfter (calls : List Call) : Database := (run calls .empty).db

theorem run_append (calls calls' : List Call) (w : QueueWorld) :
    run (calls ++ calls') w = run calls' (run calls w) := List.foldl_append

theorem databaseAfter_append (calls : List Call) (call : Call) :
    databaseAfter (calls ++ [call]) =
      committed (databaseAfter calls)
        (call.op.exec call.qm call.now call.tokens (databaseAfter calls)) := by
  unfold databaseAfter
  rw [run_append, run_cons, run_nil, Call.apply]
  cases call.op.exec call.qm call.now call.tokens (run calls .empty).db <;> rfl

/-- One order before and after every call, which the calls keep. -/
def ServesInOrder (calls : List Call) : Prop :=
  ∀ before, before <+: calls →
    (∀ projectId, OneOrder projectId (databaseAfter before)) ∧
    ∀ call, before ++ [call] <+: calls →
      call.op.KeepsOrder (databaseAfter before) (databaseAfter (before ++ [call]))

/-- In every run in which no status write brings a row back that is out of the
queue, the queue is served in one order. -/
theorem servesInOrder {calls : List Call}
    (h : ∀ before call, before ++ [call] <+: calls → ¬call.op.Revives (databaseAfter before)) :
    ServesInOrder calls := by
  intro before _
  refine ⟨fun projectId ↦ oneOrder projectId _, fun call hcall ↦ ?_⟩
  rw [databaseAfter_append]
  cases hexec : call.op.exec call.qm call.now call.tokens (databaseAfter before) with
  | error e => exact QueueOp.KeepsOrder.refl _ _
  | ok out => exact QueueOp.exec_keepsOrder hexec (h before call hcall)

/-! ## A removed merge request that comes back -/

def waitingMr (iid : ℕ) : MergeRequest where
  iid := iid
  title := "Fix the build"
  state := .opened
  labels := ["merge_queue"]
  sha := "a1"
  sourceBranch := "fix"
  targetBranch := "master"
  mergeStatus := "can_be_merged"
  author := { id := 1, name := "Dev", username := "dev" }

def queueCall (op : QueueOp) : Call := { qm := {}, now := 0, tokens := id, op }

/-- Two merge requests wait, and the first one is taken out of the queue. -/
def waitingCalls : List Call :=
  [queueCall (.addToQueue 1 (waitingMr 7) false), queueCall (.addToQueue 1 (waitingMr 8) false),
    queueCall (.removeFromQueue 1 7)]

theorem servesInOrder_while_testing :
    ServesInOrder (waitingCalls ++ [queueCall (.updateMrState 1 8 .testing {})]) := by
  apply servesInOrder
  rintro before call ⟨rest, hrest⟩
  have hactive : ∀ r ∈ (databaseAfter waitingCalls).mergeRequests.rows,
      r.projectId = 1 → r.iid = 8 → r.status.active = true := by
    decide +kernel
  rcases before with _ | ⟨a, _ | ⟨b, _ | ⟨c, _ | ⟨d, before⟩⟩⟩⟩ <;>
    simp only [waitingCalls, List.cons_append, List.nil_append, List.append_assoc,
      List.cons.injEq] at hrest
  · obtain ⟨rfl, -⟩ := hrest
    rintro ⟨_, _, _, hwrites, -⟩
    cases hwrites
  · obtain ⟨-, rfl, -⟩ := hrest
    rintro ⟨_, _, _, hwrites, -⟩
    cases hwrites
  · obtain ⟨-, -, rfl, -⟩ := hrest
    rintro ⟨_, _, _, hwrites, -⟩
    cases hwrites
  · obtain ⟨rfl, rfl, rfl, rfl, -⟩ := hrest
    rintro ⟨_, _, _, hwrites, -, r, hr, hproject, hiid, hinactive, -⟩
    cases hwrites
    rw [hactive r hr hproject hiid] at hinactive
    cases hinactive
  · obtain ⟨-, -, -, -, hrest⟩ := hrest
    simp at hrest

/-- A processor that failed puts the removed merge request back, before the one that
has been waiting meanwhile. -/
theorem lateReset_overtakes : ¬ ∀ calls : List Call, ServesInOrder calls := by
  intro hclaim
  let reset := queueCall (.updateMrState 1 7 .queued {})
  have hkeeps := (hclaim (waitingCalls ++ [reset]) waitingCalls (List.prefix_append _ _)).2 reset
    List.prefix_rfl
  have hovertakes : ∃ r' ∈ (databaseAfter (waitingCalls ++ [reset])).mergeRequests.rows,
      ∃ s ∈ (databaseAfter waitingCalls).mergeRequests.rows,
      ∃ s' ∈ (databaseAfter (waitingCalls ++ [reset])).mergeRequests.rows,
        r'.status.active = true ∧
        (∀ r ∈ (databaseAfter waitingCalls).mergeRequests.rows,
          r.status.active = true → r.id ≠ r'.id) ∧
        s.status.active = true ∧ s'.status.active = true ∧ s'.id = s.id ∧
        priorityRank s' = priorityRank r' ∧ ¬ Precedes s' r' := by
    decide +kernel
  obtain ⟨r', hr', s, hs, s', hs', hactive, hnew, hactive_s, hactive_s', hid, hrank, hbehind⟩ :=
    hovertakes
  exact hbehind (hkeeps.entry r' s s' ⟨hr', hactive⟩ (fun r hr ↦ hnew r hr.1 hr.2)
    ⟨hs, hactive_s⟩ ⟨hs', hactive_s'⟩ hid hrank)

end MergeQueue
