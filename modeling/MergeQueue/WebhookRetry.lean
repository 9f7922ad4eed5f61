import MergeQueue.Lib.KeyedTable
import MergeQueue.Lib.RelyGuarantee
import MergeQueue.QueueManager
import Mathlib.Algebra.Order.Group.Multiset
import Mathlib.Data.List.Sort

/-!
# The retry queue and the dead letter queue

A webhook event that could not be handled is stored for another attempt, and
after too many attempts in the dead letter queue.  Workers and administrators
move and drop stored events at the same time, one transaction after the other.
The payload of an event is data that no operation looks into, of any type.
-/

namespace MergeQueue

open Interleave (Program System Config Discipline)

variable {π : Type}

/-! ## The two tables -/

/-- What a stored row is about. -/
structure SavedEvent (π : Type) where
  projectId : ℕ
  eventType : String
  payload : π
  deriving DecidableEq

structure RetryRow (π : Type) where
  id : ℕ
  projectId : ℕ
  eventType : String
  payload : π
  attemptCount : ℕ
  maxAttempts : ℕ
  nextAttemptAt : ℤ
  lastError : String
  createdAt : ℤ
  deriving DecidableEq

structure DlqRow (π : Type) where
  id : ℕ
  projectId : ℕ
  eventType : String
  payload : π
  attemptCount : ℕ
  lastError : String
  originalCreatedAt : ℤ
  movedToDlqAt : ℤ
  deriving DecidableEq

instance : Keyed (RetryRow π) ℕ where
  rowId := RetryRow.id
  key := RetryRow.id

instance : Keyed (DlqRow π) ℕ where
  rowId := DlqRow.id
  key := DlqRow.id

namespace RetryRow

def saved (r : RetryRow π) : SavedEvent π :=
  { projectId := r.projectId, eventType := r.eventType, payload := r.payload }

end RetryRow

def DlqRow.saved (r : DlqRow π) : SavedEvent π :=
  { projectId := r.projectId, eventType := r.eventType, payload := r.payload }

structure RetryStore (π : Type) where
  retryQueue : KeyedTable (RetryRow π)
  dlq : KeyedTable (DlqRow π)

def RetryStore.empty : RetryStore π where
  retryQueue := .empty
  dlq := .empty

inductive RetryError
  | retryItemNotFound (itemId : ℕ)
  | dlqItemNotFound (itemId : ℕ)
  | database (message : String)
  deriving DecidableEq, Repr

structure WebhookRetryManager where
  maxAttempts : ℕ := 3
  baseDelaySeconds : ℕ := 30
  maxDelaySeconds : ℕ := 300

namespace WebhookRetryManager

variable (m : WebhookRetryManager)

/-- Exponential backoff, in microseconds since the epoch. -/
def calculateNextAttempt (attemptCount : ℕ) (now : ℤ) : ℤ :=
  now + (min (m.baseDelaySeconds * 2 ^ attemptCount) m.maxDelaySeconds : ℕ) * 1000000

/-- `id = :id AND (:project_id IS NULL OR project_id = :project_id)`. -/
def names (itemId : ℕ) (project : Option ℕ) (id projectId : ℕ) : Bool :=
  id = itemId && project.all fun p ↦ projectId = p

/-! ## Transactions -/

/-- The row that `_INSERT_RETRY_SQL` inserts. -/
def insertedRetry (event : SavedEvent π) (error : String) (now : ℤ) (id : ℕ) : RetryRow π where
  id := id
  projectId := event.projectId
  eventType := event.eventType
  payload := event.payload
  attemptCount := 0
  maxAttempts := m.maxAttempts
  nextAttemptAt := m.calculateNextAttempt 0 now
  lastError := error
  createdAt := now

theorem rowId_insertedRetry (event : SavedEvent π) (error : String) (now : ℤ) (id : ℕ) :
    Keyed.rowId (m.insertedRetry event error now id) = id := rfl

def insertRetry (event : SavedEvent π) (error : String) (now : ℤ) (store : RetryStore π) :
    RetryStore π :=
  { store with
    retryQueue :=
      store.retryQueue.insertOrIgnore (m.insertedRetry event error now)
        (m.rowId_insertedRetry event error now) }

def addToRetryQueue (event : SavedEvent π) (error : String) (now : ℤ) (store : RetryStore π) :
    ℕ × RetryStore π :=
  (store.retryQueue.nextId, m.insertRetry event error now store)

def getEventsReadyForRetry (limit : ℕ) (project : Option ℕ) (excluded : List ℕ) (now : ℤ)
    (store : RetryStore π) : List (RetryRow π) :=
  ((store.retryQueue.rows.filter fun r ↦
    decide (r.nextAttemptAt ≤ now) && (project.all fun p ↦ r.projectId = p) &&
      !excluded.contains r.projectId).insertionSort fun a b ↦
        a.nextAttemptAt < b.nextAttemptAt ∨ (a.nextAttemptAt = b.nextAttemptAt ∧ a.id ≤ b.id)).take
    limit

def selectRetryById (retryId : ℕ) (project : Option ℕ) (store : RetryStore π) :
    Option (RetryRow π) :=
  store.retryQueue.rows.find? fun r ↦ names retryId project r.id r.projectId

def markRetrySuccess (retryId : ℕ) (project : Option ℕ) (store : RetryStore π) :
    Except RetryError (Unit × RetryStore π) :=
  let hit := fun r : RetryRow π ↦ names retryId project r.id r.projectId
  if store.retryQueue.rows.any hit then
    .ok ((), { store with retryQueue := store.retryQueue.deleteWhere hit })
  else .error (.retryItemNotFound retryId)

/-- The row that `_INSERT_DLQ_SQL` inserts for a row that was read. -/
def insertedDlq (row : RetryRow π) (error : String) (incrementAttempt : Bool) (now : ℤ)
    (id : ℕ) : DlqRow π where
  id := id
  projectId := row.projectId
  eventType := row.eventType
  payload := row.payload
  attemptCount := row.attemptCount + incrementAttempt.toNat
  lastError := error
  originalCreatedAt := row.createdAt
  movedToDlqAt := now

theorem rowId_insertedDlq (row : RetryRow π) (error : String) (incrementAttempt : Bool) (now : ℤ)
    (id : ℕ) : Keyed.rowId (insertedDlq row error incrementAttempt now id) = id := rfl

/-- Deletes the row that was read and stores what was read of it as dead. -/
def moveRowToDlq (row : RetryRow π) (error : String) (incrementAttempt : Bool) (now : ℤ)
    (store : RetryStore π) : Except RetryError (ℕ × RetryStore π) :=
  let hit := fun r : RetryRow π ↦ names row.id (some row.projectId) r.id r.projectId
  if store.retryQueue.rows.any hit then
    .ok (store.dlq.nextId,
      { retryQueue := store.retryQueue.deleteWhere hit
        dlq :=
          store.dlq.insertOrIgnore (insertedDlq row error incrementAttempt now)
            (rowId_insertedDlq row error incrementAttempt now) })
  else .error (.retryItemNotFound row.id)

/-- `UPDATE … SET attempt_count = attempt_count + 1`. -/
def recordAttempt (retryId : ℕ) (error : String) (project : Option ℕ) (store : RetryStore π) :
    RetryStore π :=
  { store with
    retryQueue :=
      store.retryQueue.updateWhere (fun r ↦ names retryId project r.id r.projectId) fun r ↦
        { r with attemptCount := r.attemptCount + 1, lastError := error } }

/-- `_UPDATE_RETRY_ATTEMPT_SQL`. -/
def reschedule (retryId attemptCount : ℕ) (error : String) (now : ℤ) (store : RetryStore π) :
    RetryStore π :=
  { store with
    retryQueue :=
      store.retryQueue.updateWhere (fun r ↦ r.id = retryId) fun r ↦
        { r with
          attemptCount
          nextAttemptAt := m.calculateNextAttempt attemptCount now
          lastError := error } }

def markRetryFailed (retryId : ℕ) (error : String) (project : Option ℕ) (now : ℤ)
    (store : RetryStore π) : Except RetryError (Bool × RetryStore π) :=
  let store := recordAttempt retryId error project store
  match selectRetryById retryId project store with
  | none => .error (.retryItemNotFound retryId)
  | some row =>
      if row.attemptCount ≥ row.maxAttempts then do
        let (_, store) ← moveRowToDlq row error false now store
        return (true, store)
      else .ok (false, m.reschedule retryId row.attemptCount error now store)

def getDlqEntry (entryId : ℕ) (project : Option ℕ) (store : RetryStore π) :
    Except RetryError (DlqRow π) :=
  match store.dlq.rows.find? fun r ↦ names entryId project r.id r.projectId with
  | none => .error (.dlqItemNotFound entryId)
  | some row => .ok row

def deleteDlqEntry (entryId : ℕ) (project : Option ℕ) (store : RetryStore π) :
    Bool × RetryStore π :=
  let hit := fun r : DlqRow π ↦ names entryId project r.id r.projectId
  (store.dlq.rows.any hit, { store with dlq := store.dlq.deleteWhere hit })

/-- Claims one dead row and stores it for retry again. -/
def retryDlqEntry (entryId : ℕ) (project : Option ℕ) (now : ℤ) (store : RetryStore π) :
    Except RetryError (ℕ × RetryStore π) :=
  let hit := fun r : DlqRow π ↦ names entryId project r.id r.projectId
  match store.dlq.rows.find? hit with
  | none => .error (.dlqItemNotFound entryId)
  | some row =>
      .ok (m.addToRetryQueue row.saved
        s!"Re-queued from DLQ (original error: {row.lastError})" now
        { store with dlq := store.dlq.deleteWhere hit })

def cleanupOldDlqEntries (days : ℕ) (now : ℤ) (store : RetryStore π) : ℕ × RetryStore π :=
  let hit := fun r : DlqRow π ↦ decide (r.movedToDlqAt < now - days * 86400 * 1000000)
  (store.dlq.rows.countP hit, { store with dlq := store.dlq.deleteWhere hit })

end WebhookRetryManager

open WebhookRetryManager

/-! ## Transactions as data -/

inductive RetryOp (π : Type)
  | add (event : SavedEvent π) (error : String)
  | ready (limit : ℕ) (project : Option ℕ) (excluded : List ℕ)
  | select (retryId : ℕ) (project : Option ℕ)
  | markSuccess (retryId : ℕ) (project : Option ℕ)
  | markFailed (retryId : ℕ) (error : String) (project : Option ℕ)
  | moveToDlq (row : RetryRow π) (error : String) (incrementAttempt : Bool)
  | getDlq (entryId : ℕ) (project : Option ℕ)
  | deleteDlq (entryId : ℕ) (project : Option ℕ)
  | retryDlq (entryId : ℕ) (project : Option ℕ)
  | cleanup (days : ℕ)

namespace RetryOp

abbrev Answer : RetryOp π → Type
  | add .. | moveToDlq .. | retryDlq .. | cleanup .. => ℕ
  | ready .. => List (RetryRow π)
  | select .. => Option (RetryRow π)
  | getDlq .. => DlqRow π
  | markSuccess .. => Unit
  | markFailed .. | deleteDlq .. => Bool

def exec (m : WebhookRetryManager) (now : ℤ) :
    (op : RetryOp π) → RetryStore π → Except RetryError (op.Answer × RetryStore π)
  | add event error, store => .ok (m.addToRetryQueue event error now store)
  | ready limit project excluded, store =>
      .ok (getEventsReadyForRetry limit project excluded now store, store)
  | select retryId project, store => .ok (selectRetryById retryId project store, store)
  | markSuccess retryId project, store => markRetrySuccess retryId project store
  | markFailed retryId error project, store => m.markRetryFailed retryId error project now store
  | moveToDlq row error incrementAttempt, store =>
      moveRowToDlq row error incrementAttempt now store
  | getDlq entryId project, store =>
      (getDlqEntry entryId project store).map fun row ↦ (row, store)
  | deleteDlq entryId project, store => .ok (deleteDlqEntry entryId project store)
  | retryDlq entryId project, store => m.retryDlqEntry entryId project now store
  | cleanup days, store => .ok (cleanupOldDlqEntries days now store)

/-- The events that the transaction stores for the first time. -/
def added : RetryOp π → List (SavedEvent π)
  | add event _ => [event]
  | _ => []

/-- The stored events that the transaction takes out: the acknowledged ones, and the
dead ones that are deleted or too old. -/
def taken (now : ℤ) : RetryOp π → RetryStore π → List (SavedEvent π)
  | markSuccess retryId project, store =>
      (store.retryQueue.rows.filter fun r ↦ names retryId project r.id r.projectId).map
        RetryRow.saved
  | deleteDlq entryId project, store =>
      (store.dlq.rows.filter fun r ↦ names entryId project r.id r.projectId).map DlqRow.saved
  | cleanup days, store =>
      (store.dlq.rows.filter fun r ↦
        decide (r.movedToDlqAt < now - days * 86400 * 1000000)).map DlqRow.saved
  | _, _ => []

end RetryOp

/-! ## Calls of the manager as tasks -/

/-- A call of the manager by a worker, the webhook endpoint or an administrator. -/
inductive RetryCall (π : Type)
  | addToRetryQueue (event : SavedEvent π) (error : String)
  | getEventsReadyForRetry (limit : ℕ) (project : Option ℕ) (excluded : List ℕ)
  | moveRetryToDlq (retryId : ℕ) (error : String) (projectId : ℕ)
  | markRetrySuccess (retryId : ℕ) (project : Option ℕ)
  | markRetryFailed (retryId : ℕ) (error : String) (project : Option ℕ)
  | getDlqEntry (entryId : ℕ) (project : Option ℕ)
  | deleteDlqEntry (entryId : ℕ) (project : Option ℕ)
  | retryDlqEntry (entryId : ℕ) (project : Option ℕ)
  | cleanupOldDlqEntries (days : ℕ)

abbrev RetryProg (π : Type) (α : Type) := Program (RetryOp π) RetryOp.Answer Unit RetryError α

namespace RetryProg

def await (op : RetryOp π) : RetryProg π op.Answer := Program.call op

/-- The row is read in one transaction and moved in another. -/
def moveRetryToDlq (retryId : ℕ) (error : String) (projectId : ℕ) : RetryProg π Unit := do
  match ← await (.select retryId (some projectId)) with
  | none => throw (.retryItemNotFound retryId)
  | some row => do
      let _ ← await (.moveToDlq row error false)

def only (op : RetryOp π) : RetryProg π Unit := do
  let _ ← await op

def body : RetryCall π → RetryProg π Unit
  | .addToRetryQueue event error => only (.add event error)
  | .getEventsReadyForRetry limit project excluded => only (.ready limit project excluded)
  | .moveRetryToDlq retryId error projectId => moveRetryToDlq retryId error projectId
  | .markRetrySuccess retryId project => only (.markSuccess retryId project)
  | .markRetryFailed retryId error project => only (.markFailed retryId error project)
  | .getDlqEntry entryId project => only (.getDlq entryId project)
  | .deleteDlqEntry entryId project => only (.deleteDlq entryId project)
  | .retryDlqEntry entryId project => only (.retryDlq entryId project)
  | .cleanupOldDlqEntries days => only (.cleanup days)

end RetryProg

/-- The tables, and the events that were ever added and taken out. -/
structure RetryWorld (π : Type) where
  store : RetryStore π
  added : List (SavedEvent π) := []
  taken : List (SavedEvent π) := []

/-- The time of a transaction, and whether it fails: before it, or in the answer. -/
structure RetryChoice where
  now : ℤ
  failure : Option (RetryError × Bool) := none

namespace RetryWorld

def commit (m : WebhookRetryManager) (now : ℤ) (op : RetryOp π) (w : RetryWorld π) :
    Except RetryError op.Answer × RetryWorld π :=
  match op.exec m now w.store with
  | .error e => (.error e, w)
  | .ok (answer, store) =>
      (.ok answer,
        { store, added := w.added ++ op.added, taken := w.taken ++ op.taken now w.store })

def exec (m : WebhookRetryManager) (choice : RetryChoice) (op : RetryOp π) (w : RetryWorld π) :
    Except RetryError op.Answer × RetryWorld π :=
  match choice.failure with
  | none => w.commit m choice.now op
  | some (error, false) => (.error error, w)
  | some (error, true) => (.error error, (w.commit m choice.now op).2)

end RetryWorld

def retrySystem (m : WebhookRetryManager) (π : Type) :
    System (RetryOp π) RetryOp.Answer Unit RetryError where
  World := RetryWorld π
  Choice := RetryChoice
  Entry := RetryCall π
  exec := fun _ choice op w ↦ some (w.exec m choice op)
  body := RetryProg.body
  init := fun _ ↦ ()
  arrive := fun _ w ↦ w
  crash := id

/-! ## What one transaction does to the stored events -/

/-- Every stored event, as often as it is stored. -/
def RetryStore.contents (store : RetryStore π) : Multiset (SavedEvent π) :=
  (store.retryQueue.rows.map RetryRow.saved : List (SavedEvent π)) +
    (store.dlq.rows.map DlqRow.saved : List (SavedEvent π))

section Table

variable {ρ α : Type} [Keyed ρ ℕ] {t : KeyedTable ρ}

theorem coe_map_deleteWhere (f : ρ → α) (p : ρ → Bool) :
    (((t.deleteWhere p).rows.map f : List α) : Multiset α) + ((t.rows.filter p).map f : List α) =
      (t.rows.map f : List α) := by
  rw [add_comm, Multiset.coe_add, ← List.map_append, Multiset.coe_eq_coe]
  exact (t.filter_append_deleteWhere_perm p).map f

/-- An insertion under the next identity always happens. -/
theorem coe_map_insertOrIgnore (f : ρ → α) {mk : ℕ → ρ} {hmk : ∀ n, Keyed.rowId (mk n) = n}
    (hkey : ∀ r : ρ, Keyed.key r = Keyed.rowId r) :
    (((t.insertOrIgnore mk hmk).rows.map f : List α) : Multiset α) =
      (t.rows.map f : List α) + {f (mk t.nextId)} := by
  have hfree : t.byKey (Keyed.key (mk t.nextId)) = none := by
    rw [KeyedTable.byKey_eq_none_iff]
    intro r hr hsame
    rw [hkey, hkey, hmk] at hsame
    exact absurd hsame (t.below r hr).ne
  rw [KeyedTable.insertOrIgnore_rows_of_free hfree, List.map_append]
  rfl

theorem map_updateWhere (f : ρ → α) {p : ρ → Bool} {g : ρ → ρ}
    {hg : ∀ r, Keyed.rowId (g r) = Keyed.rowId r ∧ Keyed.key (g r) = Keyed.key r}
    (hf : ∀ r, f (g r) = f r) : (t.updateWhere p g hg).rows.map f = t.rows.map f := by
  rw [KeyedTable.updateWhere_rows, List.map_map]
  apply List.map_congr_left
  intro r _
  simp only [Function.comp_apply]
  split_ifs
  · exact hf r
  · rfl

end Table

theorem rowId_of_names {itemId id projectId : ℕ} {project : Option ℕ}
    (h : names itemId project id projectId = true) : id = itemId := by
  simp only [names, Bool.and_eq_true, decide_eq_true_eq] at h
  exact h.1

variable {m : WebhookRetryManager} {now : ℤ} {store store' : RetryStore π}

theorem filter_retryQueue (store : RetryStore π) (itemId : ℕ) (project : Option ℕ) :
    (store.retryQueue.rows.filter fun r ↦ names itemId project r.id r.projectId) =
      (store.retryQueue.rows.find? fun r ↦ names itemId project r.id r.projectId).toList :=
  store.retryQueue.filter_of_rowId fun _ hr ↦ rowId_of_names hr

theorem filter_dlq (store : RetryStore π) (itemId : ℕ) (project : Option ℕ) :
    (store.dlq.rows.filter fun r ↦ names itemId project r.id r.projectId) =
      (store.dlq.rows.find? fun r ↦ names itemId project r.id r.projectId).toList :=
  store.dlq.filter_of_rowId fun _ hr ↦ rowId_of_names hr

theorem contents_insertRetry (event : SavedEvent π) (error : String) :
    (m.insertRetry event error now store).contents = store.contents + {event} := by
  simp only [RetryStore.contents, insertRetry]
  rw [coe_map_insertOrIgnore _ fun _ ↦ rfl, add_right_comm]
  rfl

/-- The row was read from the retry queue, some time before. -/
structure ReadFrom (row : RetryRow π) (store : RetryStore π) : Prop where
  old : row.id < store.retryQueue.nextId
  saved : ∀ r ∈ store.retryQueue.rows, r.id = row.id → r.saved = row.saved

theorem ReadFrom.of_mem {row : RetryRow π} (h : row ∈ store.retryQueue.rows) :
    ReadFrom row store where
  old := store.retryQueue.below row h
  saved := by
    intro r hr hid
    rw [store.retryQueue.eq_of_rowId_eq hr h hid]

/-- A move takes what it deletes to the other queue. -/
theorem contents_moveRowToDlq {row : RetryRow π} {error : String} {inc : Bool} {id : ℕ}
    (hrow : ReadFrom row store) (h : moveRowToDlq row error inc now store = .ok (id, store')) :
    store'.contents = store.contents := by
  simp only [moveRowToDlq] at h
  split at h
  · next hany =>
      cases h
      have hdelete := @coe_map_deleteWhere _ _ _ store.retryQueue RetryRow.saved
        fun r ↦ names row.id (some row.projectId) r.id r.projectId
      rw [filter_retryQueue] at hdelete
      obtain ⟨r, hfind⟩ := Option.isSome_iff_exists.mp (List.find?_isSome.mpr
        (List.any_eq_true.mp hany))
      have hnamed := List.find?_some hfind
      have hsaved : r.saved = row.saved :=
        hrow.saved r (List.mem_of_find?_eq_some hfind) (rowId_of_names hnamed)
      rw [hfind, Option.toList_some, List.map_singleton, hsaved, Multiset.coe_singleton]
        at hdelete
      simp only [RetryStore.contents]
      rw [coe_map_insertOrIgnore _ fun _ ↦ rfl, ← hdelete, add_right_comm, ← add_assoc]
      rfl
  · cases h

theorem contents_recordAttempt (retryId : ℕ) (error : String) (project : Option ℕ) :
    (recordAttempt retryId error project store).contents = store.contents := by
  simp only [RetryStore.contents, recordAttempt]
  rw [map_updateWhere RetryRow.saved]
  exact fun _ ↦ rfl

theorem contents_reschedule (retryId attemptCount : ℕ) (error : String) :
    (m.reschedule retryId attemptCount error now store).contents = store.contents := by
  simp only [RetryStore.contents, reschedule]
  rw [map_updateWhere RetryRow.saved]
  exact fun _ ↦ rfl

/-- Another attempt changes no stored event. -/
theorem contents_markRetryFailed {retryId : ℕ} {error : String} {project : Option ℕ}
    {moved : Bool} (h : m.markRetryFailed retryId error project now store = .ok (moved, store')) :
    store'.contents = store.contents := by
  simp only [markRetryFailed] at h
  split at h
  · cases h
  · next row hfind =>
      split at h
      · obtain ⟨⟨id, moved⟩, hmove, hend⟩ := bind_eq_ok.mp h
        cases hend
        rw [contents_moveRowToDlq (.of_mem (List.mem_of_find?_eq_some hfind)) hmove,
          contents_recordAttempt]
      · cases h
        rw [contents_reschedule, contents_recordAttempt]

theorem contents_retryDlqEntry {entryId id : ℕ} {project : Option ℕ}
    (h : m.retryDlqEntry entryId project now store = .ok (id, store')) :
    store'.contents = store.contents := by
  simp only [retryDlqEntry] at h
  split at h
  · cases h
  · next row hfind =>
      cases h
      have hdelete := @coe_map_deleteWhere _ _ _ store.dlq DlqRow.saved
        fun r ↦ names entryId project r.id r.projectId
      rw [filter_dlq, hfind, Option.toList_some, List.map_singleton, Multiset.coe_singleton]
        at hdelete
      refine (contents_insertRetry _ _).trans ?_
      simp only [RetryStore.contents]
      rw [add_assoc, hdelete]

/-- Up to what is added and taken out, a transaction keeps the stored events. -/
theorem RetryOp.exec_contents {op : RetryOp π} {answer : op.Answer}
    (h : op.exec m now store = .ok (answer, store'))
    (hread : ∀ row error inc, op = .moveToDlq row error inc → ReadFrom row store) :
    store'.contents + (op.taken now store : List (SavedEvent π)) =
      store.contents + (op.added : List (SavedEvent π)) := by
  cases op with
  | add event error =>
      cases h
      rw [contents_insertRetry]
      exact add_zero _
  | ready limit project excluded | select retryId project =>
      cases h
      rfl
  | getDlq entryId project =>
      simp only [RetryOp.exec, Except.map] at h
      split at h <;> cases h
      rfl
  | moveToDlq row error inc =>
      rw [contents_moveRowToDlq (hread row error inc rfl) h]
      rfl
  | markFailed retryId error project =>
      rw [contents_markRetryFailed h]
      rfl
  | retryDlq entryId project =>
      rw [contents_retryDlqEntry h]
      rfl
  | markSuccess retryId project =>
      simp only [RetryOp.exec, markRetrySuccess] at h
      split at h
      · cases h
        simp only [RetryStore.contents, RetryOp.taken, RetryOp.added]
        rw [add_right_comm, coe_map_deleteWhere]
        exact (add_zero _).symm
      · cases h
  | deleteDlq entryId project | cleanup days =>
      cases h
      simp only [RetryStore.contents, RetryOp.taken, RetryOp.added]
      rw [add_assoc, coe_map_deleteWhere]
      exact (add_zero _).symm

/-! ## Rows under one identity -/

/-- The row is about the same event as before. -/
def SameEvent (r r' : RetryRow π) : Prop := r'.saved = r.saved

theorem SameEvent.refl (r : RetryRow π) : SameEvent r r := Eq.refl r.saved

/-- Rows keep what they are about, and identities are not reused. -/
abbrev Continues (store store' : RetryStore π) : Prop :=
  KeyedTable.Evolves SameEvent (fun _ ↦ True) store.retryQueue store'.retryQueue

theorem Continues.refl (store : RetryStore π) : Continues store store :=
  KeyedTable.Evolves.refl SameEvent.refl

theorem Continues.trans {s t u : RetryStore π} (hst : Continues s t) (htu : Continues t u) :
    Continues s u :=
  hst.comp htu (fun _ _ _ hab hbc ↦ Eq.trans hbc hab) (fun _ _ _ _ ↦ trivial) fun _ _ ↦ trivial

theorem ReadFrom.mono {row : RetryRow π} (h : ReadFrom row store) (hs : Continues store store') :
    ReadFrom row store' where
  old := h.old.trans_le hs.nextId_le
  saved := by
    intro r' hr' hid
    obtain ⟨r, hr, hrid, -, hsame⟩ := hs.of_rowId_lt hr' (hid.trans_lt h.old)
    exact Eq.trans hsame (h.saved r hr (hrid.symm.trans hid))

theorem continues_deleteWhere (p : RetryRow π → Bool) (dlq : KeyedTable (DlqRow π)) :
    Continues store { retryQueue := store.retryQueue.deleteWhere p, dlq } :=
  KeyedTable.Evolves.deleteWhere fun r _ ↦ SameEvent.refl r

theorem continues_moveRowToDlq {row : RetryRow π} {error : String} {inc : Bool} {id : ℕ}
    (h : moveRowToDlq row error inc now store = .ok (id, store')) : Continues store store' := by
  simp only [moveRowToDlq] at h
  split at h <;> cases h
  exact continues_deleteWhere _ _

theorem continues_insertRetry (store : RetryStore π) (event : SavedEvent π) (error : String) :
    Continues store (m.insertRetry event error now store) := by
  apply KeyedTable.Evolves.insertOrIgnore
  · exact fun _ ↦ rfl
  · exact SameEvent.refl
  · trivial

theorem continues_recordAttempt (retryId : ℕ) (error : String) (project : Option ℕ) :
    Continues store (recordAttempt retryId error project store) := by
  apply KeyedTable.Evolves.updateWhere
  · exact fun _ ↦ ⟨rfl, rfl⟩
  · exact SameEvent.refl
  · intro r _ _
    exact Eq.refl r.saved

theorem continues_reschedule (retryId attemptCount : ℕ) (error : String) :
    Continues store (m.reschedule retryId attemptCount error now store) := by
  apply KeyedTable.Evolves.updateWhere
  · exact fun _ ↦ ⟨rfl, rfl⟩
  · exact SameEvent.refl
  · intro r _ _
    exact Eq.refl r.saved

theorem RetryOp.exec_continues {op : RetryOp π} {answer : op.Answer}
    (h : op.exec m now store = .ok (answer, store')) : Continues store store' := by
  cases op with
  | add event error =>
      cases h
      exact continues_insertRetry store event error
  | ready limit project excluded | select retryId project | deleteDlq entryId project
  | cleanup days =>
      cases h
      exact Continues.refl store
  | getDlq entryId project =>
      simp only [RetryOp.exec, Except.map] at h
      split at h <;> cases h
      exact Continues.refl store
  | moveToDlq row error inc => exact continues_moveRowToDlq h
  | markSuccess retryId project =>
      simp only [RetryOp.exec, markRetrySuccess] at h
      split at h <;> cases h
      exact continues_deleteWhere _ _
  | retryDlq entryId project =>
      simp only [RetryOp.exec, retryDlqEntry] at h
      split at h <;> cases h
      exact continues_insertRetry { store with dlq := store.dlq.deleteWhere _ } _ _
  | markFailed retryId error project =>
      simp only [RetryOp.exec, markRetryFailed] at h
      split at h
      · cases h
      · split at h
        · obtain ⟨⟨id, moved⟩, hmove, hend⟩ := bind_eq_ok.mp h
          cases hend
          exact (continues_recordAttempt _ _ _).trans (continues_moveRowToDlq hmove)
        · cases h
          exact (continues_recordAttempt _ _ _).trans (continues_reschedule _ _ _)

/-! ## Every interleaving -/

/-- What is stored or was taken out is what was added. -/
def RetryWorld.Conserved (w : RetryWorld π) : Prop :=
  w.store.contents + (w.taken : List (SavedEvent π)) = (w.added : List (SavedEvent π))

theorem RetryWorld.commit_conserves {w : RetryWorld π} {op : RetryOp π} (hw : w.Conserved)
    (hread : ∀ row error inc, op = .moveToDlq row error inc → ReadFrom row w.store) :
    (w.commit m now op).2.Conserved ∧ Continues w.store (w.commit m now op).2.store := by
  simp only [commit]
  cases hexec : op.exec m now w.store with
  | error e => exact ⟨hw, Continues.refl w.store⟩
  | ok out =>
      obtain ⟨answer, store⟩ := out
      refine ⟨?_, RetryOp.exec_continues hexec⟩
      have hstep := RetryOp.exec_contents hexec hread
      simp only [Conserved] at hw ⊢
      rw [← Multiset.coe_add, ← Multiset.coe_add, ← add_assoc, add_right_comm, hstep,
        add_right_comm, hw]

theorem RetryWorld.exec_conserves {w : RetryWorld π} {choice : RetryChoice} {op : RetryOp π}
    (hw : w.Conserved)
    (hread : ∀ row error inc, op = .moveToDlq row error inc → ReadFrom row w.store) :
    (w.exec m choice op).2.Conserved ∧ Continues w.store (w.exec m choice op).2.store := by
  simp only [exec]
  rcases choice.failure with _ | ⟨error, _ | _⟩
  · exact commit_conserves hw hread
  · exact ⟨hw, Continues.refl w.store⟩
  · exact commit_conserves hw hread

/-- A row that a transaction selects was read from the retry queue. -/
theorem RetryWorld.exec_select {w : RetryWorld π} {choice : RetryChoice} {retryId : ℕ}
    {project : Option ℕ} {row : RetryRow π}
    (h : (w.exec m choice (.select retryId project)).1 = .ok (some row)) :
    ReadFrom row (w.exec m choice (.select retryId project)).2.store := by
  obtain ⟨now, _ | ⟨error, _ | _⟩⟩ := choice
  · have hselect : selectRetryById retryId project w.store = some row := Except.ok.inj h
    exact ReadFrom.of_mem (List.mem_of_find?_eq_some hselect)
  · cases h
  · cases h

def retryDiscipline (m : WebhookRetryManager) (π : Type) : Discipline (retrySystem m π) where
  inv := RetryWorld.Conserved
  rely := fun _ w v ↦ Continues w.store v.store
  rely_refl := fun _ w ↦ Continues.refl w.store
  rely_trans := fun _ _ _ _ huv hvw ↦ huv.trans hvw

namespace RetryProg

variable {i : ℕ} {entry : RetryCall π}

/-- One transaction is safe, if a row it moves was read from the retry queue. -/
theorem safe_await {op : RetryOp π} {pre : Unit → RetryWorld π → Prop}
    (hpre : ∀ s w, pre s w → ∀ row error inc, op = .moveToDlq row error inc →
      ReadFrom row w.store) :
    Program.Safe (retryDiscipline m π) i entry pre (await op) (fun _ _ _ ↦ True)
      fun _ _ _ ↦ True := by
  apply Program.Safe.call
  intro s w v hs hrely hinv choice answer v' hexec _
  have hout : v.exec m choice op = (answer, v') := Option.some.inj hexec
  have hstep := @RetryWorld.exec_conserves _ m v choice op hinv
    fun row error inc hop ↦ (hpre s w hs row error inc hop).mono hrely
  rw [hout] at hstep
  refine ⟨⟨hstep.1, fun _ _ ↦ hstep.2, trivial⟩, ?_⟩
  split <;> trivial

theorem safe_only {op : RetryOp π} (hop : ∀ row error inc, op ≠ .moveToDlq row error inc) :
    Program.Safe (retryDiscipline m π) i entry (fun _ _ ↦ True) (only op) (fun _ _ _ ↦ True)
      fun _ _ _ ↦ True := by
  apply Program.Safe.bind
  · apply safe_await
    intro s w _ row error inc hmove
    exact absurd hmove (hop row error inc)
  · exact fun _ _ _ _ ↦ trivial

theorem safe_moveRetryToDlq (retryId : ℕ) (error : String) (projectId : ℕ) :
    Program.Safe (retryDiscipline m π) i entry (fun _ _ ↦ True)
      (moveRetryToDlq retryId error projectId) (fun _ _ _ ↦ True) fun _ _ _ ↦ True := by
  have hselect : Program.Safe (retryDiscipline m π) i entry (fun _ _ ↦ True)
      (await (.select retryId (some projectId)))
      (fun row _ (w : RetryWorld π) ↦ ∀ r, row = some r → ReadFrom r w.store)
      fun _ _ _ ↦ True := by
    apply Program.Safe.call
    intro s w v _ _ hinv choice answer v' hexec _
    have hout : v.exec m choice (.select retryId (some projectId)) = (answer, v') :=
      Option.some.inj hexec
    have hstep := @RetryWorld.exec_conserves _ m v choice (.select retryId (some projectId)) hinv
      (by nofun)
    rw [hout] at hstep
    refine ⟨⟨hstep.1, fun _ _ ↦ hstep.2, trivial⟩, ?_⟩
    split
    · next row =>
        rintro r rfl
        have hread := @RetryWorld.exec_select _ m v choice retryId (some projectId) r
          (congrArg Prod.fst hout)
        rwa [hout] at hread
    · trivial
  apply hselect.bind
  · rintro (_ | row)
    · exact Program.Safe.throw fun _ _ _ ↦ trivial
    · apply Program.Safe.bind
      · apply safe_await
        rintro s w hrow r error' inc hop
        cases hop
        exact hrow row rfl
      · exact fun _ _ _ _ ↦ trivial

theorem safe_body (call : RetryCall π) :
    Program.Safe (retryDiscipline m π) i entry (fun _ _ ↦ True) (body call) (fun _ _ _ ↦ True)
      fun _ _ _ ↦ True := by
  cases call with
  | moveRetryToDlq retryId error projectId => exact safe_moveRetryToDlq retryId error projectId
  | _ =>
      apply safe_only
      nofun

end RetryProg

theorem retryDiscipline_sustained : (retryDiscipline m π).Sustained where
  arrive := fun _ w hw ↦ ⟨hw, fun _ ↦ Continues.refl w.store⟩
  body := fun call _ w _ ↦ RetryProg.safe_body call () w trivial
  crash := fun _ hw ↦ hw

theorem conserved_run (moves : List (Interleave.Move (retrySystem m π))) :
    (Config.run (S := retrySystem m π) { world := { store := .empty } } moves).world.Conserved := by
  have hstart : Config.Safe (retryDiscipline m π) { world := { store := .empty } } := by
    refine ⟨?_, ?_⟩
    · rfl
    · intro i entry task htask
      simp at htask
  exact (hstart.run retryDiscipline_sustained (by simp [retryDiscipline])).2.inv

section Counts

variable [DecidableEq π]

/-- In every interleaving each event that was added is stored as often as it was
added and not taken out; so one that was added once is in the retry queue, or in the
dead letter queue, or was taken out. -/
theorem webhook_events_conserved (m : WebhookRetryManager)
    (moves : List (Interleave.Move (retrySystem m π))) (event : SavedEvent π) :
    let w := (Config.run (S := retrySystem m π) { world := { store := .empty } } moves).world
    let waiting := (w.store.retryQueue.rows.map RetryRow.saved).count event
    let dead := (w.store.dlq.rows.map DlqRow.saved).count event
    waiting + dead + w.taken.count event = w.added.count event ∧
      (w.added.count event = 1 →
        (waiting = 1 ∧ dead = 0 ∧ event ∉ w.taken) ∨
          (waiting = 0 ∧ dead = 1 ∧ event ∉ w.taken) ∨
          (waiting = 0 ∧ dead = 0 ∧ event ∈ w.taken)) := by
  intro w waiting dead
  have hconserved : w.Conserved := conserved_run moves
  have hcount : waiting + dead + w.taken.count event = w.added.count event := by
    have := congrArg (Multiset.count event) hconserved
    simpa only [RetryStore.contents, Multiset.count_add, Multiset.coe_count] using this
  refine ⟨hcount, fun hone ↦ ?_⟩
  rw [← List.count_eq_zero, ← List.count_pos_iff]
  omega

end Counts

end MergeQueue
