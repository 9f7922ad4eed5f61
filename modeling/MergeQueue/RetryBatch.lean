import MergeQueue.WebhookRetry

/-!
# One iteration of the retry processor

The processor reads a batch of stored events that are due and tries each of them again.
Handlers and parsers raise, and other workers and administrators move and drop rows while
it works.  A transaction touches each row of the queue by itself, so what others do to a row
can be followed without the processor.
-/

namespace MergeQueue

open WebhookRetryManager

variable {π : Type}

/-! ## The processor -/

inductive ParsedKind
  | mergeRequest
  | pipeline
  | unsupported (typeName : String)
  deriving DecidableEq, Repr

/-- There is a handler for the events of this class. -/
def ParsedKind.supported : ParsedKind → Bool
  | mergeRequest | pipeline => true
  | unsupported _ => false

structure ParsedEvent where
  kind : ParsedKind
  projectId : ℕ
  deriving DecidableEq, Repr

/-- The parser raises, or does not know the event, or gives one. -/
structure WebhookRetryProcessor (π : Type) where
  retryManager : WebhookRetryManager
  projectComponents : Option {projects : List ℕ // projects.Nodup}
  eventParser : π → Except String (Option ParsedEvent)

/-- An exception of a transaction, or of a parser or handler. -/
inductive ItemError
  | retry (error : RetryError)
  | other (text : String)
  deriving DecidableEq, Repr

def RetryError.str : RetryError → String
  | retryItemNotFound itemId => s!"Retry queue item not found: {itemId}"
  | dlqItemNotFound itemId => s!"DLQ item not found: {itemId}"
  | database message => message

def ItemError.str : ItemError → String
  | retry error => error.str
  | other text => text

/-- What somebody else commits, and when. -/
structure Commit (π : Type) where
  now : ℤ
  op : RetryOp π

/-- What others commit before the processor reads due events, and when it reads. -/
structure QueueRead (π : Type) where
  before : List (Commit π) := []
  now : ℤ

/-- What happens around an item: whether a shutdown was requested when its turn comes, what
others commit before it is looked at and until its transaction, what its handler raises, and
the time of the transaction. -/
structure Encounter (π : Type) where
  shutdown : Bool := false
  before : List (Commit π) := []
  during : List (Commit π) := []
  handled : Option String := none
  now : ℤ

/-- The queue, the items that are in work, and those of which work was begun. -/
structure ProcessorState (π : Type) where
  store : RetryStore π
  processingCount : ℕ := 0
  started : List ℕ := []

namespace RetryOp

variable (m : WebhookRetryManager) (now : ℤ)

/-- The answer of a transaction and the tables after it. -/
def transact (op : RetryOp π) (store : RetryStore π) :
    Except ItemError op.Answer × RetryStore π :=
  match op.exec m now store with
  | .ok (answer, store) => (.ok answer, store)
  | .error error => (.error (.retry error), store)

end RetryOp

/-- Others commit, one after the other. -/
def commitAll (m : WebhookRetryManager) (commits : List (Commit π)) (store : RetryStore π) :
    RetryStore π :=
  commits.foldl (fun store commit ↦ (commit.op.transact m commit.now store).2) store

namespace WebhookRetryProcessor

variable (P : WebhookRetryProcessor π)

/-- The queries of an iteration, by project and excluded projects. -/
def queries : List (Option ℕ × List ℕ) :=
  match P.projectComponents with
  | none => [(none, [])]
  | some projects => projects.1.map (fun project ↦ (some project, [])) ++ [(none, projects.1)]

def readBatch (reading : ℕ → QueueRead π) :
    List (Option ℕ × List ℕ) → RetryStore π → List (RetryRow π) × RetryStore π
  | [], store => ([], store)
  | (project, excluded) :: queries, store =>
      let store := commitAll P.retryManager (reading 0).before store
      let events := getEventsReadyForRetry 10 project excluded (reading 0).now store
      let (more, store) := readBatch (fun k ↦ reading (k + 1)) queries store
      (events ++ more, store)

/-- The item belongs to a project that is no longer configured. -/
def unconfigured (item : RetryRow π) : Bool :=
  P.projectComponents.any fun projects ↦ !projects.1.contains item.projectId

def mismatched (item : RetryRow π) (event : ParsedEvent) : Bool :=
  P.projectComponents.isSome && event.projectId != item.projectId

/-- A transaction whose answer is not looked at. -/
def commit (op : RetryOp π) (now : ℤ) (store : RetryStore π) :
    Except ItemError Unit × RetryStore π :=
  let out := op.transact P.retryManager now store
  (out.1.map fun _ ↦ (), out.2)

/-- The block that is tried for an item. -/
def attempt (item : RetryRow π) (e : Encounter π) (store : RetryStore π) :
    Except ItemError Unit × RetryStore π :=
  let looked := commitAll P.retryManager e.before store
  let arrived := commitAll P.retryManager e.during looked
  let failed (error : String) :=
    P.commit (.markFailed item.id error (some item.projectId)) e.now arrived
  if P.unconfigured item then
    match selectRetryById item.id (some item.projectId) looked with
    | none => (.error (.retry (.retryItemNotFound item.id)), arrived)
    | some row =>
        P.commit
          (.moveToDlq row "Project is no longer configured; automatic retry was stopped" false)
          e.now arrived
  else
    match P.eventParser item.payload with
    | .error text => (.error (.other text), arrived)
    | .ok none => failed s!"Unknown event type: {item.eventType}"
    | .ok (some event) =>
        if P.mismatched item event then
          failed "Stored project_id does not match webhook payload"
        else
          match event.kind with
          | .unsupported typeName => failed s!"Unsupported event type: {typeName}"
          | .mergeRequest | .pipeline =>
              match e.handled with
              | some text => (.error (.other text), arrived)
              | none => P.commit (.markSuccess item.id (some item.projectId)) e.now arrived

/-- The handlers of exceptions.  What recording a failure raises is not handled. -/
def recover (item : RetryRow π) (e : Encounter π) :
    Except ItemError Unit × RetryStore π → Except ItemError Unit × RetryStore π
  | (.ok (), store) => (.ok (), store)
  | (.error (.retry (.retryItemNotFound _)), store) => (.ok (), store)
  | (.error error, store) =>
      P.commit (.markFailed item.id error.str (some item.projectId)) e.now store

def processRetryItem (item : RetryRow π) (e : Encounter π) (s : ProcessorState π) :
    Except ItemError Unit × ProcessorState π :=
  let s := { s with
    processingCount := s.processingCount + 1
    started := s.started ++ [item.id] }
  let (result, store) := P.recover item e (P.attempt item e s.store)
  (result, { s with store, processingCount := s.processingCount - 1 })

def processItems :
    (ℕ → Encounter π) → List (RetryRow π) → ProcessorState π →
      Except ItemError Unit × ProcessorState π
  | _, [], s => (.ok (), s)
  | encounter, item :: items, s =>
      if (encounter 0).shutdown then (.ok (), s)
      else
        match P.processRetryItem item (encounter 0) s with
        | (.ok (), s) => processItems (fun k ↦ encounter (k + 1)) items s
        | (.error error, s) => (.error error, s)

def processIteration (reading : ℕ → QueueRead π) (encounter : ℕ → Encounter π)
    (s : ProcessorState π) : Except ItemError Unit × ProcessorState π :=
  let (events, store) := P.readBatch reading P.queries s.store
  P.processItems encounter events { s with store }

end WebhookRetryProcessor

/-! ## Rows by themselves -/

def RetryStore.row (store : RetryStore π) (id : ℕ) : Option (RetryRow π) :=
  store.retryQueue.byId id

namespace RetryOp

/-- What a transaction makes of a row of the retry queue. -/
def onRow (m : WebhookRetryManager) (now : ℤ) : RetryOp π → RetryRow π → Option (RetryRow π)
  | markSuccess retryId project, r =>
      if names retryId project r.id r.projectId then none else some r
  | moveToDlq row _ _, r =>
      if names row.id (some row.projectId) r.id r.projectId then none else some r
  | markFailed retryId error project, r =>
      if names retryId project r.id r.projectId then
        if r.attemptCount + 1 ≥ r.maxAttempts then none
        else some { r with
          attemptCount := r.attemptCount + 1
          nextAttemptAt := m.calculateNextAttempt (r.attemptCount + 1) now
          lastError := error }
      else some r
  | _, r => some r

end RetryOp

section Rows

variable {m : WebhookRetryManager} {now : ℤ} {store : RetryStore π} {id : ℕ}

theorem row_eq_some_iff {r : RetryRow π} :
    store.row id = some r ↔ r ∈ store.retryQueue.rows ∧ r.id = id :=
  KeyedTable.byId_eq_some_iff

theorem row_eq_none_iff : store.row id = none ↔ ¬ store.retryQueue.HasId id := by
  unfold RetryStore.row KeyedTable.HasId
  rw [KeyedTable.byId_eq_none_iff]
  push Not
  rfl

theorem row_deleteWhere (p : RetryRow π → Bool) (dlq : KeyedTable (DlqRow π)) :
    RetryStore.row { retryQueue := store.retryQueue.deleteWhere p, dlq } id =
      (store.row id).bind fun r ↦ if p r then none else some r := by
  unfold RetryStore.row
  refine Option.ext fun r ↦ ?_
  rw [KeyedTable.byId_deleteWhere_eq_some_iff]
  constructor
  · rintro ⟨hr, hp⟩
    rw [hr]
    exact if_neg (by rw [hp]; exact Bool.false_ne_true)
  · intro h
    obtain ⟨s, hs, hkept⟩ := Option.bind_eq_some_iff.mp h
    split_ifs at hkept with hp
    obtain rfl := Option.some.inj hkept
    exact ⟨hs, by simpa using hp⟩

/-- A row that is not named is left alone. -/
theorem bind_not_named {p : RetryRow π → Bool} {f : RetryRow π → Option (RetryRow π)}
    (h : store.retryQueue.rows.any p = false) :
    ((store.row id).bind fun r ↦ if p r then f r else some r) = store.row id := by
  cases hrow : store.row id with
  | none => rfl
  | some r =>
      have hnot := List.any_eq_false.mp h r (row_eq_some_iff.mp hrow).1
      exact if_neg hnot

theorem row_insertRetry (event : SavedEvent π) (error : String)
    (h : id < store.retryQueue.nextId) :
    (m.insertRetry event error now store).row id = store.row id :=
  @KeyedTable.byKey_insertOrIgnore_of_ne _ _ _ _ (m.insertedRetry event error now)
    (m.rowId_insertedRetry event error now) store.retryQueue id h.ne'

theorem row_recordAttempt (retryId : ℕ) (error : String) (project : Option ℕ) :
    (recordAttempt retryId error project store).row id = (store.row id).map fun r ↦
      if names retryId project r.id r.projectId then
        { r with attemptCount := r.attemptCount + 1, lastError := error }
      else r := by
  unfold RetryStore.row recordAttempt
  rw [KeyedTable.byId_updateWhere]

theorem row_reschedule (retryId attemptCount : ℕ) (error : String) :
    (m.reschedule retryId attemptCount error now store).row id = (store.row id).map fun r ↦
      if r.id = retryId then
        { r with
          attemptCount
          nextAttemptAt := m.calculateNextAttempt attemptCount now
          lastError := error }
      else r := by
  unfold RetryStore.row reschedule
  rw [KeyedTable.byId_updateWhere]
  simp only [decide_eq_true_eq]

theorem names_self (itemId projectId : ℕ) :
    names itemId (some projectId) itemId projectId = true := by
  simp [names]

/-- The row that a query selects is the one under its identity. -/
theorem selectRetryById_eq_some_iff {retryId : ℕ} {project : Option ℕ} {r : RetryRow π} :
    selectRetryById retryId project store = some r ↔
      store.row retryId = some r ∧ names retryId project r.id r.projectId = true := by
  constructor
  · intro h
    have hnamed := List.find?_some h
    refine ⟨row_eq_some_iff.mpr ⟨List.mem_of_find?_eq_some h, rowId_of_names hnamed⟩, hnamed⟩
  · rintro ⟨hrow, hnamed⟩
    exact KeyedTable.find?_eq_some_of_byId hrow hnamed fun _ hs ↦ rowId_of_names hs

theorem selectRetryById_eq_none {retryId : ℕ} {project : Option ℕ}
    (h : selectRetryById retryId project store = none) :
    (store.retryQueue.rows.any fun r ↦ names retryId project r.id r.projectId) = false := by
  rw [List.any_eq_false]
  exact List.find?_eq_none.mp h

theorem row_moveRowToDlq {row : RetryRow π} {error : String} {inc : Bool} {dead : ℕ}
    {store' : RetryStore π} (h : moveRowToDlq row error inc now store = .ok (dead, store')) :
    store'.row id = (store.row id).bind fun r ↦
      if names row.id (some row.projectId) r.id r.projectId then none else some r := by
  unfold moveRowToDlq at h
  simp only at h
  split_ifs at h with hany
  obtain rfl := (Prod.mk.inj (Except.ok.inj h)).2
  exact row_deleteWhere _ _

theorem selectRetryById_recordAttempt (retryId : ℕ) (error : String) (project : Option ℕ) :
    selectRetryById retryId project (recordAttempt retryId error project store) =
      (selectRetryById retryId project store).map fun r ↦
        { r with attemptCount := r.attemptCount + 1, lastError := error } := by
  cases hselect : selectRetryById retryId project store with
  | none =>
      unfold recordAttempt
      rw [KeyedTable.updateWhere_of_any_eq_false (selectRetryById_eq_none hselect)]
      exact hselect
  | some r =>
      obtain ⟨hrow, hnamed⟩ := selectRetryById_eq_some_iff.mp hselect
      refine selectRetryById_eq_some_iff.mpr ⟨?_, hnamed⟩
      rw [row_recordAttempt, hrow, Option.map_some, if_pos hnamed]

/-- A failure is recorded where the row is found. -/
theorem markRetryFailed_eq_error_iff {retryId : ℕ} {error : String} {project : Option ℕ} :
    (∃ e, m.markRetryFailed retryId error project now store = .error e) ↔
      selectRetryById retryId project store = none := by
  unfold markRetryFailed
  simp only [selectRetryById_recordAttempt]
  cases hselect : selectRetryById retryId project store with
  | none => exact iff_of_true ⟨_, rfl⟩ rfl
  | some r =>
      refine iff_of_false ?_ (by simp)
      rintro ⟨e, herror⟩
      obtain ⟨hrow, hnamed⟩ := selectRetryById_eq_some_iff.mp hselect
      simp only [Option.map_some] at herror
      split_ifs at herror
      unfold moveRowToDlq at herror
      simp only at herror
      split_ifs at herror with hany
      · cases herror
      · apply hany
        have hrecorded : (recordAttempt retryId error project store).row retryId =
            some { r with attemptCount := r.attemptCount + 1, lastError := error } := by
          rw [row_recordAttempt, hrow, Option.map_some, if_pos hnamed]
        exact List.any_eq_true.mpr ⟨_, (row_eq_some_iff.mp hrecorded).1, names_self _ _⟩

/-- A failure that is recorded. -/
theorem row_markRetryFailed {retryId : ℕ} {error : String} {project : Option ℕ} {moved : Bool}
    {store' : RetryStore π}
    (h : m.markRetryFailed retryId error project now store = .ok (moved, store')) :
    store'.row id =
      (store.row id).bind (RetryOp.onRow m now (.markFailed retryId error project)) := by
  unfold markRetryFailed at h
  simp only [selectRetryById_recordAttempt] at h
  cases hselect : selectRetryById retryId project store with
  | none =>
      rw [hselect] at h
      cases h
  | some named =>
      obtain ⟨hnamedRow, hnamed⟩ := selectRetryById_eq_some_iff.mp hselect
      have hnamedId := (row_eq_some_iff.mp hnamedRow).2
      rw [hselect] at h
      simp only [Option.map_some] at h
      have hother : ∀ r, store.row id = some r →
          names retryId project r.id r.projectId = false → r.id ≠ retryId := by
        rintro r hr hnot hid
        rw [← (row_eq_some_iff.mp hr).2, hid, hnamedRow] at hr
        obtain rfl := Option.some.inj hr
        rw [hnamed] at hnot
        cases hnot
      have hself : ∀ r, store.row id = some r →
          names retryId project r.id r.projectId = true → r = named := by
        intro r hr hnames
        rw [← (row_eq_some_iff.mp hr).2, rowId_of_names hnames, hnamedRow] at hr
        exact (Option.some.inj hr).symm
      split_ifs at h with hlast
      · obtain ⟨⟨dead, moved'⟩, hmove, hend⟩ := bind_eq_ok.mp h
        obtain rfl := (Prod.mk.inj (Except.ok.inj hend)).2
        rw [row_moveRowToDlq hmove, row_recordAttempt]
        cases hrow : store.row id with
        | none => rfl
        | some r =>
            cases hnames : names retryId project r.id r.projectId with
            | true =>
                obtain rfl := hself r hrow hnames
                simp [RetryOp.onRow, hnames, names_self, hlast]
            | false =>
                have hne := hother r hrow hnames
                rw [hnamedId]
                simp [RetryOp.onRow, names, hne]
      · obtain rfl := (Prod.mk.inj (Except.ok.inj h)).2
        rw [row_reschedule, row_recordAttempt]
        cases hrow : store.row id with
        | none => rfl
        | some r =>
            cases hnames : names retryId project r.id r.projectId with
            | true =>
                obtain rfl := hself r hrow hnames
                simp only [Option.map_some, Option.bind_some, RetryOp.onRow, hnames, if_true,
                  hlast, if_false]
                rw [if_pos hnamedId]
            | false =>
                have hne := hother r hrow hnames
                simp [RetryOp.onRow, hnames, hne]

/-- Each row goes its own way. -/
theorem row_transact (op : RetryOp π) (h : id < store.retryQueue.nextId) :
    (op.transact m now store).2.row id = (store.row id).bind (op.onRow m now) := by
  unfold RetryOp.transact
  cases hexec : op.exec m now store with
  | ok out =>
      obtain ⟨answer, store'⟩ := out
      cases op with
      | add event error =>
          obtain rfl := (Prod.mk.inj (Except.ok.inj hexec)).2
          exact (row_insertRetry _ _ h).trans (Option.bind_fun_some _).symm
      | ready limit project excluded | select retryId project | deleteDlq entryId project
      | cleanup days =>
          obtain rfl := (Prod.mk.inj (Except.ok.inj hexec)).2
          exact (Option.bind_fun_some _).symm
      | markFailed retryId error project => exact row_markRetryFailed hexec
      | moveToDlq row error inc => exact row_moveRowToDlq hexec
      | markSuccess retryId project =>
          simp only [RetryOp.exec, markRetrySuccess] at hexec
          split_ifs at hexec
          obtain rfl := (Prod.mk.inj (Except.ok.inj hexec)).2
          exact row_deleteWhere _ _
      | getDlq entryId project =>
          simp only [RetryOp.exec, Except.map] at hexec
          split at hexec <;> cases hexec
          exact (Option.bind_fun_some _).symm
      | retryDlq entryId project =>
          simp only [RetryOp.exec, retryDlqEntry] at hexec
          split at hexec
          · cases hexec
          · obtain rfl := (Prod.mk.inj (Except.ok.inj hexec)).2
            refine Eq.trans ?_ (Option.bind_fun_some _).symm
            exact row_insertRetry _ _ h
  | error e =>
      cases op with
      | markFailed retryId error project =>
          have hnone := markRetryFailed_eq_error_iff.mp ⟨e, hexec⟩
          exact (bind_not_named (selectRetryById_eq_none hnone)).symm
      | moveToDlq row error inc =>
          simp only [RetryOp.exec, moveRowToDlq] at hexec
          split_ifs at hexec with hany
          exact (bind_not_named (Bool.eq_false_iff.mpr hany)).symm
      | markSuccess retryId project =>
          simp only [RetryOp.exec, markRetrySuccess] at hexec
          split_ifs at hexec with hany
          exact (bind_not_named (Bool.eq_false_iff.mpr hany)).symm
      | _ => exact (Option.bind_fun_some _).symm

theorem continues_transact (op : RetryOp π) (store : RetryStore π) :
    Continues store (op.transact m now store).2 := by
  unfold RetryOp.transact
  cases hexec : op.exec m now store with
  | ok out => exact RetryOp.exec_continues hexec
  | error e => exact Continues.refl store

theorem continues_commitAll (commits : List (Commit π)) (store : RetryStore π) :
    Continues store (commitAll m commits store) := by
  induction commits generalizing store with
  | nil => exact Continues.refl store
  | cons first commits ih => exact (continues_transact first.op store).trans (ih _)

/-- What others make of a row depends on the row alone. -/
theorem row_commitAll {alone : RetryStore π} (commits : List (Commit π))
    (hstore : id < store.retryQueue.nextId) (halone : id < alone.retryQueue.nextId)
    (hrow : store.row id = alone.row id) :
    (commitAll m commits store).row id = (commitAll m commits alone).row id := by
  induction commits generalizing store alone with
  | nil => exact hrow
  | cons first commits ih =>
      refine ih ?_ ?_ ?_
      · exact hstore.trans_le (continues_transact first.op store).nextId_le
      · exact halone.trans_le (continues_transact first.op alone).nextId_le
      · rw [row_transact _ hstore, row_transact _ halone, hrow]

end Rows

/-! ## The processor's own transactions -/

namespace RetryOp

/-- The row that a transaction of the processor is about. -/
def itemId : RetryOp π → Option ℕ
  | markSuccess retryId _ | markFailed retryId _ _ => some retryId
  | moveToDlq row _ _ => some row.id
  | _ => none

variable {m : WebhookRetryManager} {now : ℤ} {store : RetryStore π} {op : RetryOp π} {id : ℕ}

theorem onRow_of_ne (hop : op.itemId = some id) {r : RetryRow π} (hne : r.id ≠ id) :
    op.onRow m now r = some r := by
  have hnot : ∀ project, ¬ names id project r.id r.projectId = true :=
    fun project hnames ↦ hne (rowId_of_names hnames)
  cases op with
  | markSuccess retryId project | markFailed retryId error project =>
      obtain rfl := Option.some.inj hop
      exact if_neg (hnot project)
  | moveToDlq row error inc =>
      obtain rfl := Option.some.inj hop
      exact if_neg (hnot _)
  | _ => cases hop

/-- It raises where the row is gone, and then nothing else. -/
theorem exec_eq_error (hop : op.itemId = some id) {e : RetryError}
    (h : op.exec m now store = .error e) : ∃ itemId, e = .retryItemNotFound itemId := by
  cases op with
  | markSuccess retryId project =>
      simp only [exec, markRetrySuccess] at h
      split_ifs at h
      exact ⟨_, (Except.error.inj h).symm⟩
  | moveToDlq row error inc =>
      simp only [exec, moveRowToDlq] at h
      split_ifs at h
      exact ⟨_, (Except.error.inj h).symm⟩
  | markFailed retryId error project =>
      have hnone := markRetryFailed_eq_error_iff.mp ⟨e, h⟩
      simp only [exec, markRetryFailed, selectRetryById_recordAttempt, hnone, Option.map_none] at h
      exact ⟨_, (Except.error.inj h).symm⟩
  | _ => cases hop

end RetryOp

/-- The handlers of exceptions leave nothing to do. -/
def ItemSettled (result : Except ItemError Unit) : Prop :=
  result = .ok () ∨ ∃ itemId, result = .error (.retry (.retryItemNotFound itemId))

/-- Only the row under this identity may be another one. -/
structure SparesOthers (id : ℕ) (store store' : RetryStore π) : Prop where
  continues : Continues store store'
  row : ∀ other ≠ id, other < store.retryQueue.nextId → store'.row other = store.row other

theorem SparesOthers.refl (id : ℕ) (store : RetryStore π) : SparesOthers id store store :=
  ⟨Continues.refl store, fun _ _ _ ↦ rfl⟩

/-- When the item's transaction comes, as far as others are concerned. -/
def Encounter.arrive (m : WebhookRetryManager) (e : Encounter π) (store : RetryStore π) :
    RetryStore π :=
  commitAll m e.during (commitAll m e.before store)

namespace WebhookRetryProcessor

variable {P : WebhookRetryProcessor π} {item : RetryRow π} {e : Encounter π}
  {store : RetryStore π}

theorem commit_spec {op : RetryOp π} {id : ℕ} {now : ℤ} (hop : op.itemId = some id) :
    ItemSettled (P.commit op now store).1 ∧ SparesOthers id store (P.commit op now store).2 := by
  refine ⟨?_, continues_transact op store, ?_⟩
  · unfold commit RetryOp.transact
    cases hexec : op.exec P.retryManager now store with
    | ok out => exact Or.inl rfl
    | error error =>
        obtain ⟨itemId, rfl⟩ := RetryOp.exec_eq_error hop hexec
        exact Or.inr ⟨itemId, rfl⟩
  · intro other hne hold
    refine (row_transact op hold).trans ?_
    cases hrow : store.row other with
    | none => rfl
    | some r =>
        have hid := (row_eq_some_iff.mp hrow).2
        exact RetryOp.onRow_of_ne hop (hid.trans_ne hne)

theorem commit_eq_ok_iff {op : RetryOp π} {now : ℤ} :
    (P.commit op now store).1 = .ok () ↔
      ¬ ∃ error, op.exec P.retryManager now store = .error error := by
  unfold commit RetryOp.transact
  cases hexec : op.exec P.retryManager now store with
  | ok out => exact iff_of_true rfl (by simp)
  | error error => exact iff_of_false (by simp [Except.map]) (not_not_intro ⟨error, rfl⟩)

/-- The parser or the handler raises. -/
def raises (P : WebhookRetryProcessor π) (item : RetryRow π) (e : Encounter π) : Bool :=
  !P.unconfigured item &&
    match P.eventParser item.payload with
    | .error _ => true
    | .ok none => false
    | .ok (some event) =>
        !P.mismatched item event && event.kind.supported && e.handled.isSome

/-- Unless the parser or the handler raises, the block that is tried settles the item. -/
theorem attempt_spec :
    (P.raises item e = true ∧
      ∃ text, P.attempt item e store = (.error (.other text), e.arrive P.retryManager store)) ∨
    (P.raises item e = false ∧ ItemSettled (P.attempt item e store).1 ∧
      SparesOthers item.id (e.arrive P.retryManager store) (P.attempt item e store).2) := by
  unfold attempt raises
  cases hconfigured : P.unconfigured item with
  | true =>
      right
      refine ⟨rfl, ?_⟩
      simp only [if_true]
      cases hselect : selectRetryById item.id (some item.projectId)
          (commitAll P.retryManager e.before store) with
      | none => exact ⟨Or.inr ⟨item.id, rfl⟩, SparesOthers.refl _ _⟩
      | some row =>
          have hid := rowId_of_names (selectRetryById_eq_some_iff.mp hselect).2
          exact commit_spec (congrArg some hid)
  | false =>
      simp only [Bool.false_eq_true, if_false, Bool.not_false, Bool.true_and]
      rcases hparse : P.eventParser item.payload with text | _ | event
      · exact Or.inl ⟨rfl, text, rfl⟩
      · exact Or.inr ⟨rfl, commit_spec rfl⟩
      · cases hmismatch : P.mismatched item event with
        | true =>
            simp only [hmismatch, if_true, Bool.not_true, Bool.false_and]
            exact Or.inr ⟨trivial, commit_spec rfl⟩
        | false =>
            simp only [hmismatch, Bool.false_eq_true, if_false, Bool.not_false, Bool.true_and]
            rcases hkind : event.kind with _ | _ | typeName
            · rcases e.handled with _ | text
              · exact Or.inr ⟨rfl, commit_spec rfl⟩
              · exact Or.inl ⟨rfl, text, rfl⟩
            · rcases e.handled with _ | text
              · exact Or.inr ⟨rfl, commit_spec rfl⟩
              · exact Or.inl ⟨rfl, text, rfl⟩
            · exact Or.inr ⟨rfl, commit_spec rfl⟩

theorem arrive_continues (e : Encounter π) (m : WebhookRetryManager) (store : RetryStore π) :
    Continues store (e.arrive m store) :=
  (continues_commitAll e.before store).trans (continues_commitAll e.during _)

/-- Work on an item raises if the parser or the handler raises and the row is gone. -/
theorem recover_attempt (hread : ReadFrom item store) :
    ((P.recover item e (P.attempt item e store)).1 = .ok () ↔
      ¬ (P.raises item e = true ∧
        ¬ (e.arrive P.retryManager store).retryQueue.HasId item.id)) ∧
    SparesOthers item.id (e.arrive P.retryManager store)
      (P.recover item e (P.attempt item e store)).2 := by
  rcases @attempt_spec _ P item e store with ⟨hraises, text, hattempt⟩ | ⟨hquiet, hsettled, hspares⟩
  · rw [hattempt]
    refine ⟨?_, (commit_spec rfl).2⟩
    have harrived := hread.mono (arrive_continues e P.retryManager store)
    generalize e.arrive P.retryManager store = arrived at harrived ⊢
    have herror := @markRetryFailed_eq_error_iff _ P.retryManager e.now arrived item.id text
      (some item.projectId)
    have hfound : selectRetryById item.id (some item.projectId) arrived = none ↔
        ¬ arrived.retryQueue.HasId item.id := by
      rw [← row_eq_none_iff, Option.eq_none_iff_forall_ne_some, Option.eq_none_iff_forall_ne_some]
      refine forall_congr' fun r ↦ not_congr ?_
      rw [selectRetryById_eq_some_iff]
      refine and_iff_left_of_imp fun hrow ↦ ?_
      obtain ⟨hmem, hid⟩ := row_eq_some_iff.mp hrow
      have hproject : r.projectId = item.projectId :=
        congrArg SavedEvent.projectId (harrived.saved r hmem hid)
      rw [hid, hproject]
      exact names_self _ _
    rw [hfound] at herror
    have hrecorded : (P.recover item e (.error (.other text), arrived)).1 = .ok () ↔
        ¬ ∃ error, P.retryManager.markRetryFailed item.id text (some item.projectId) e.now arrived =
          .error error := commit_eq_ok_iff
    rw [hrecorded, herror]
    exact not_congr (and_iff_right hraises).symm
  · have hnone : ¬ (P.raises item e = true ∧
        ¬ (e.arrive P.retryManager store).retryQueue.HasId item.id) := by
      rintro ⟨hraises, -⟩
      rw [hquiet] at hraises
      cases hraises
    revert hsettled hspares
    generalize P.attempt item e store = attempted
    obtain ⟨result, left⟩ := attempted
    rintro (rfl | ⟨itemId, rfl⟩) hspares
    · exact ⟨iff_of_true rfl hnone, hspares⟩
    · exact ⟨iff_of_true rfl hnone, hspares⟩

/-! ## The items of a batch -/

/-- The items whose turn comes before a shutdown is requested. -/
def due : (ℕ → Encounter π) → List (RetryRow π) → List (RetryRow π)
  | _, [] => []
  | encounter, item :: items =>
      if (encounter 0).shutdown then [] else item :: due (fun k ↦ encounter (k + 1)) items

/-- No item but the last raises in its parser or handler while others, by themselves, have
removed its row before the failure is recorded. -/
def NoneLost (P : WebhookRetryProcessor π) :
    (ℕ → Encounter π) → RetryStore π → List (RetryRow π) → Prop
  | encounter, alone, item :: next :: items =>
      let arrived := (encounter 0).arrive P.retryManager alone
      ¬ (P.raises item (encounter 0) = true ∧ ¬ arrived.retryQueue.HasId item.id) ∧
        NoneLost P (fun k ↦ encounter (k + 1)) arrived (next :: items)
  | _, _, _ => True

/-- The actual queue and the one that others alone leave agree on an item. -/
structure Agrees (item : RetryRow π) (store alone : RetryStore π) : Prop where
  read : ReadFrom item store
  old : item.id < alone.retryQueue.nextId
  row : store.row item.id = alone.row item.id

theorem Agrees.arrive {alone : RetryStore π} (h : Agrees item store alone)
    (m : WebhookRetryManager) (e : Encounter π) :
    Agrees item (e.arrive m store) (e.arrive m alone) where
  read := h.read.mono (arrive_continues e m store)
  old := h.old.trans_le (arrive_continues e m alone).nextId_le
  row := by
    apply row_commitAll e.during
    · exact h.read.old.trans_le (continues_commitAll e.before store).nextId_le
    · exact h.old.trans_le (continues_commitAll e.before alone).nextId_le
    · exact row_commitAll e.before h.read.old h.old h.row

theorem Agrees.of_spares {alone : RetryStore π} {id : ℕ} {left : RetryStore π}
    (h : Agrees item store alone) (hspares : SparesOthers id store left) (hne : item.id ≠ id) :
    Agrees item left alone where
  read := h.read.mono hspares.continues
  old := h.old
  row := (hspares.row item.id hne h.read.old).trans h.row

theorem Agrees.hasId_iff {alone : RetryStore π} (h : Agrees item store alone) :
    store.retryQueue.HasId item.id ↔ alone.retryQueue.HasId item.id := by
  rw [← not_iff_not, ← row_eq_none_iff, ← row_eq_none_iff, h.row]

theorem processRetryItem_started (s : ProcessorState π) :
    (P.processRetryItem item e s).2.started = s.started ++ [item.id] := rfl

/-- Work on an item goes on to the next one unless it is lost. -/
theorem processRetryItem_eq_ok_iff {s : ProcessorState π} {alone : RetryStore π}
    (hagree : Agrees item s.store alone) :
    (P.processRetryItem item e s).1 = .ok () ↔
      ¬ (P.raises item e = true ∧
        ¬ (e.arrive P.retryManager alone).retryQueue.HasId item.id) := by
  rw [← (hagree.arrive P.retryManager e).hasId_iff]
  exact (recover_attempt hagree.read).1

/-- The items are all begun exactly if none is lost. -/
theorem started_processItems {encounter : ℕ → Encounter π} {items : List (RetryRow π)}
    {s : ProcessorState π} {alone : RetryStore π} (hdistinct : (items.map RetryRow.id).Nodup)
    (hagree : ∀ item ∈ items, Agrees item s.store alone) :
    (P.processItems encounter items s).2.started =
        s.started ++ (due encounter items).map RetryRow.id ↔
      NoneLost P encounter alone (due encounter items) := by
  induction items generalizing encounter s alone with
  | nil => exact iff_of_true (List.append_nil _).symm trivial
  | cons item items ih =>
      unfold processItems due
      by_cases hshutdown : (encounter 0).shutdown = true
      · simp only [hshutdown, if_true]
        exact iff_of_true (List.append_nil _).symm trivial
      · simp only [hshutdown, Bool.false_eq_true, if_false]
        rw [List.map_cons, List.nodup_cons] at hdistinct
        rw [List.forall_mem_cons] at hagree
        have hok := @processRetryItem_eq_ok_iff _ P item (encounter 0) s alone hagree.1
        have hspares := (@recover_attempt _ P item (encounter 0) s.store hagree.1.read).2
        have hstarted := @processRetryItem_started _ P item (encounter 0) s
        have hrest : ∀ other ∈ items, Agrees other
            (P.processRetryItem item (encounter 0) s).2.store
            ((encounter 0).arrive P.retryManager alone) := by
          intro other hother
          have hne : other.id ≠ item.id := by
            intro hsame
            exact hdistinct.1 (hsame ▸ List.mem_map_of_mem hother)
          exact ((hagree.2 other hother).arrive P.retryManager (encounter 0)).of_spares hspares hne
        generalize P.processRetryItem item (encounter 0) s = out at hok hstarted hrest ⊢
        obtain ⟨result, s'⟩ := out
        have hmore := @ih (fun k ↦ encounter (k + 1)) s' _ hdistinct.2 hrest
        simp only at hok hstarted
        rw [hstarted, List.append_assoc] at hmore
        cases result with
        | ok done =>
            have hkept := hok.mp rfl
            refine hmore.trans ?_
            cases due (fun k ↦ encounter (k + 1)) items with
            | nil => exact iff_of_true trivial trivial
            | cons next more => exact (and_iff_right hkept).symm
        | error error =>
            have hlost : ¬ ¬ _ := mt hok.mpr (by simp)
            cases due (fun k ↦ encounter (k + 1)) items with
            | nil => exact iff_of_true hstarted trivial
            | cons next more =>
                refine iff_of_false ?_ fun hnone ↦ hlost hnone.1
                intro hsame
                have hlength := congrArg List.length (hstarted.symm.trans hsame)
                simp at hlength

/-! ## The batch -/

/-- The query selects rows of this project. -/
def admits (query : Option ℕ × List ℕ) (projectId : ℕ) : Bool :=
  (query.1.all fun p ↦ projectId = p) && !query.2.contains projectId

theorem mem_of_ready {limit now project excluded}
    (h : item ∈ getEventsReadyForRetry limit project excluded now store) :
    item ∈ store.retryQueue.rows ∧ admits (project, excluded) item.projectId = true := by
  have hsorted := List.mem_of_mem_take h
  rw [List.mem_insertionSort, List.mem_filter, Bool.and_eq_true, Bool.and_eq_true] at hsorted
  obtain ⟨hmem, ⟨-, hproject⟩, hexcluded⟩ := hsorted
  exact ⟨hmem, Bool.and_eq_true_iff.mpr ⟨hproject, hexcluded⟩⟩

theorem nodup_ready (limit : ℕ) (project : Option ℕ) (excluded : List ℕ) (now : ℤ)
    (store : RetryStore π) :
    ((getEventsReadyForRetry limit project excluded now store).map RetryRow.id).Nodup := by
  have hrows : (store.retryQueue.rows.map RetryRow.id).Nodup :=
    List.pairwise_map.mpr (store.retryQueue.ordered.imp Nat.ne_of_lt)
  unfold getEventsReadyForRetry
  rw [List.map_take]
  refine (List.take_sublist _ _).nodup ?_
  refine ((List.perm_insertionSort _ _).map RetryRow.id).nodup_iff.mpr ?_
  exact (List.filter_sublist.map RetryRow.id).nodup hrows

/-- An item of a batch was in the queue when it was read. -/
structure WasRead (item : RetryRow π) (first last : RetryStore π) : Prop where
  reached : ∃ middle, Continues first middle ∧ Continues middle last ∧
    item ∈ middle.retryQueue.rows

theorem WasRead.readFrom {first last : RetryStore π} (h : WasRead item first last) :
    ReadFrom item last := by
  obtain ⟨middle, -, hlast, hmem⟩ := h.reached
  exact (ReadFrom.of_mem hmem).mono hlast

theorem WasRead.after {start first last : RetryStore π} (h : WasRead item first last)
    (hstart : Continues start first) : WasRead item start last := by
  obtain ⟨middle, hfirst, hlast, hmem⟩ := h.reached
  exact ⟨middle, hstart.trans hfirst, hlast, hmem⟩

/-- Queries that have no project in common give different items. -/
theorem readBatch_spec (reading : ℕ → QueueRead π) {queries : List (Option ℕ × List ℕ)}
    (hqueries : queries.Pairwise fun a b ↦ ∀ p, admits a p = true → ¬ admits b p = true)
    (store : RetryStore π) :
    Continues store (P.readBatch reading queries store).2 ∧
      (∀ item ∈ (P.readBatch reading queries store).1,
        (∃ query ∈ queries, admits query item.projectId = true) ∧
          WasRead item store (P.readBatch reading queries store).2) ∧
      ((P.readBatch reading queries store).1.map RetryRow.id).Nodup := by
  induction queries generalizing reading store with
  | nil => exact ⟨Continues.refl store, by simp [readBatch], List.nodup_nil⟩
  | cons query queries ih =>
      obtain ⟨project, excluded⟩ := query
      rw [List.pairwise_cons] at hqueries
      unfold readBatch
      have hcommits := @continues_commitAll _ P.retryManager (reading 0).before store
      generalize commitAll P.retryManager (reading 0).before store = current at hcommits ⊢
      obtain ⟨hrest, hitems, hdistinct⟩ := ih (fun k ↦ reading (k + 1)) hqueries.2 current
      have hnodup := nodup_ready 10 project excluded (reading 0).now current
      refine ⟨hcommits.trans hrest, ?_, ?_⟩
      · intro item hitem
        rcases List.mem_append.mp hitem with hfirst | hlater
        · obtain ⟨hmem, hadmits⟩ := mem_of_ready hfirst
          exact ⟨⟨_, List.mem_cons_self, hadmits⟩, current, hcommits, hrest, hmem⟩
        · obtain ⟨⟨query, hquery, hadmits⟩, hread⟩ := hitems item hlater
          exact ⟨⟨query, List.mem_cons_of_mem _ hquery, hadmits⟩, hread.after hcommits⟩
      · rw [List.map_append, List.nodup_append]
        refine ⟨hnodup, hdistinct, ?_⟩
        intro id hid other hother hsame
        obtain ⟨first, hfirst, rfl⟩ := List.mem_map.mp hid
        obtain ⟨later, hlater, rfl⟩ := List.mem_map.mp hother
        obtain ⟨hmem, hadmits⟩ := mem_of_ready hfirst
        obtain ⟨⟨query, hquery, hlaterAdmits⟩, ⟨middle, hmiddle, -, hlaterMem⟩⟩ :=
          hitems later hlater
        have hevent := hmiddle.of_rowId_eq hmem hlaterMem hsame.symm
        have hproject : later.projectId = first.projectId :=
          congrArg SavedEvent.projectId hevent
        rw [hproject] at hlaterAdmits
        exact hqueries.1 query hquery _ hadmits hlaterAdmits

theorem queries_disjoint (P : WebhookRetryProcessor π) :
    P.queries.Pairwise fun a b ↦ ∀ p, admits a p = true → ¬ admits b p = true := by
  unfold queries
  cases P.projectComponents with
  | none => exact List.pairwise_singleton _ _
  | some projects =>
      have hsome : ∀ project p, admits (some project, []) p = true → p = project := by
        intro project p h
        simpa [admits] using h
      simp only [List.pairwise_append, List.pairwise_map]
      refine ⟨?_, List.pairwise_singleton _ _, ?_⟩
      · refine projects.2.imp ?_
        intro a b hne p ha hb
        exact hne ((hsome a p ha).symm.trans (hsome b p hb))
      · intro query hquery last hlast p hfirst hexcluded
        obtain ⟨project, hproject, rfl⟩ := List.mem_map.mp hquery
        obtain rfl := List.mem_singleton.mp hlast
        obtain rfl := hsome project p hfirst
        simp [admits, hproject] at hexcluded

end WebhookRetryProcessor

open WebhookRetryProcessor in
/-- An iteration begins work on every item of its batch that is due exactly if no item but the
last raises while its row is gone. -/
theorem every_item_attempted_iff (P : WebhookRetryProcessor π) (reading : ℕ → QueueRead π)
    (encounter : ℕ → Encounter π) (s : ProcessorState π) :
    let batch := P.readBatch reading P.queries s.store
    (P.processIteration reading encounter s).2.started =
        s.started ++ (due encounter batch.1).map RetryRow.id ↔
      NoneLost P encounter batch.2 (due encounter batch.1) := by
  intro batch
  obtain ⟨-, hitems, hdistinct⟩ := @readBatch_spec _ P reading _ P.queries_disjoint s.store
  refine @started_processItems _ P encounter _ { s with store := batch.2 } _ hdistinct ?_
  intro item hitem
  have hread := (hitems item hitem).2.readFrom
  exact ⟨hread, hread.old, rfl⟩

/-- A worker acknowledges the first of two items while its handler fails; the second item is
not tried. -/
theorem second_item_not_attempted :
    ¬ ∀ (P : WebhookRetryProcessor Unit) (reading : ℕ → QueueRead Unit)
        (encounter : ℕ → Encounter Unit) (s : ProcessorState Unit),
        (∀ k, (encounter k).shutdown = false) →
        (P.processIteration reading encounter s).2.started =
          s.started ++ (P.readBatch reading P.queries s.store).1.map RetryRow.id := by
  intro hclaim
  let m : WebhookRetryManager := {}
  let event : SavedEvent Unit := { projectId := 7, eventType := "merge_request", payload := () }
  let store := m.insertRetry event "timeout" 0 (m.insertRetry event "timeout" 0 .empty)
  let P : WebhookRetryProcessor Unit :=
    { retryManager := m
      projectComponents := none
      eventParser := fun _ ↦ .ok (some { kind := .mergeRequest, projectId := 7 }) }
  let lost : Encounter Unit :=
    { during := [{ now := 60000000, op := .markSuccess 1 none }]
      handled := some "timeout"
      now := 60000000 }
  have hstarted := hclaim P (fun _ ↦ { now := 60000000 })
    (fun k ↦ if k = 0 then lost else { now := 60000000 }) { store } (by
      intro k
      by_cases hk : k = 0
      · simp [hk, lost]
      · simp [hk])
  revert hstarted
  decide +kernel

end MergeQueue
