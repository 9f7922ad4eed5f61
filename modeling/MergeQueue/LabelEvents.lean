import MergeQueue.StateEntry
import MergeQueue.WebhookHandler

/-!
# Labels that webhooks bring

Webhooks about merge requests are handled beside each other, in any order, and again by the
retry processor.  A row shows the labels of the webhook whose refresh found it last, whatever
the events tell of their times.
-/

namespace MergeQueue

open Interleave (Program System Config Event Move)
open Interleave.Program (Keeps Leaves)

/-! ## What a webhook asks for -/

def Op.reclassifies : Op → Bool
  | .db q => q.reclassifies
  | _ => false

theorem Op.reclassifies_of_tends {op : Op} (h : op.tends = true) : op.reclassifies = false := by
  cases op with
  | db q => cases q <;> first | rfl | cases h
  | _ => rfl

/-- The transaction by which the webhook writes its labels under the revision that it read. -/
def RefreshOf (settings : Settings) (event : MergeRequestEvent) (revision : ℕ × ℕ)
    (q : QueueOp) : Prop :=
  ∃ isHotfix isAutomated priorityChanged,
    QueueMetadataUpdater.classifyLabels settings event.labels = .ok (isHotfix, isAutomated) ∧
    q = .updateHotfixStatus settings.gitlabProjectId event.iid isHotfix event.labels
      (some revision) priorityChanged (some (MRWebhookHandler.admissionKey event))
      (some isAutomated)

namespace MRWebhookHandler

variable (settings : Settings) (event : MergeRequestEvent)

/-- A webhook classifies a row only by its own refresh. -/
def permits (op : Op) : Prop :=
  op.reclassifies = false ∨ ∃ revision q, op = .db q ∧ RefreshOf settings event revision q

variable {settings event}

theorem enters_permits : Op.Enters settings (permits settings event) where
  tends h := Or.inl (Op.reclassifies_of_tends h)
  locks _ _ := ⟨Or.inl rfl, Or.inl rfl⟩
  write _ := Or.inl rfl
  prepare := Or.inl rfl
  carries _ :=
    { tends := fun h ↦ Or.inl (Op.reclassifies_of_tends h)
      comment := fun _ ↦ Or.inl rfl
      progress := fun _ ↦ Or.inl rfl
      archive := fun _ _ ↦ Or.inl rfl }

theorem leaves_of_tends {α : Type} {p : Prog α} (h : p.Tends) :
    p.Leaves (permits settings event) :=
  Leaves.mono h fun _ ↦ enters_permits.tends

/-- An operation that classifies no row. -/
theorem leaves_other {op : Op} (h : op.reclassifies = false) :
    (Prog.await op).Leaves (permits settings event) :=
  Prog.leaves_await (Or.inl h)

/-- A failure that is only logged. -/
theorem leaves_logged {p : Prog Unit} (h : p.Leaves (permits settings event)) :
    Leaves (permits settings event)
      (tryCatch p fun e ↦ if e.isException then pure () else throw e) := by
  refine h.handle fun e ↦ ?_
  split_ifs
  · exact Leaves.ret ()
  · exact Leaves.throw e

theorem leaves_broadcastQueueUpdate :
    (broadcastQueueUpdate settings).Leaves (permits settings event) :=
  leaves_logged (leaves_of_tends (tends_broadcast settings))

theorem leaves_changeCompletionRequeue (item : QueueItem) (allowActive : Bool) :
    (changeCompletionRequeue settings event item allowActive).Leaves (permits settings event) := by
  unfold changeCompletionRequeue deferCompletionRequeue
  cases event.updatedAt with
  | none =>
      simp only
      split_ifs
      · exact leaves_other rfl
      · exact leaves_other rfl
      · exact Leaves.ret true
      · exact Leaves.ret true
  | some eventAt =>
      simp only
      split_ifs
      · exact leaves_other rfl
      · exact leaves_other rfl
      · exact Leaves.ret true
      · exact leaves_other rfl
      · exact leaves_other rfl

theorem leaves_admitEvent : (admitEvent settings event).Leaves (permits settings event) := by
  refine Prog.leaves_withLock (Or.inl rfl) (Or.inl rfl) ?_
  refine Leaves.bind (leaves_other rfl) fun found ↦ ?_
  cases found with
  | none => exact Leaves.ret _
  | some item =>
      simp only
      split_ifs
      · exact Leaves.ret _
      · split
        · refine Leaves.bind ?_ fun _ ↦ Leaves.ret _
          unfold admitActiveTrigger
          simp only
          split_ifs
          · exact Leaves.ret ()
          · refine (leaves_changeCompletionRequeue item true).bind fun saved ↦ ?_
            split_ifs
            · exact Leaves.ret ()
            · exact Leaves.throw _
          · exact Leaves.ret ()
        · unfold admitToCompletion
          split_ifs
          · exact Leaves.ret _
          · exact Leaves.ret _
          · exact Leaves.ret _
          · refine (leaves_changeCompletionRequeue item false).bind fun saved ↦ ?_
            split_ifs
            · exact Leaves.ret _
            · exact Leaves.throw _

theorem leaves_resumeCompletion :
    (resumeCompletion settings event).Leaves (permits settings event) := by
  refine leaves_admitEvent.bind fun outcome ↦ ?_
  rcases outcome with handled | item
  · exact Leaves.ret handled
  · refine (QueueCompletion.leaves_recover enters_permits event.iid item.queueId).bind fun _ ↦ ?_
    exact leaves_broadcastQueueUpdate.bind fun _ ↦ Leaves.ret true

/-! ### Handlers -/

theorem leaves_refreshQueueItemMetadata :
    (refreshQueueItemMetadata settings event).Leaves (permits settings event) := by
  refine Leaves.bind (refresh_leaves.mono fun op hop ↦ ?_) fun updated ↦ ?_
  · rcases hop with rfl | rfl | rfl | ⟨-, hdelivers⟩ |
      ⟨isHotfix, isAutomated, revision, priorityChanged, hclass, -, rfl⟩
    · exact Or.inl rfl
    · exact Or.inl rfl
    · exact Or.inl rfl
    · exact Or.inl (Op.reclassifies_of_tends (Op.tends_of_delivers hdelivers))
    · exact Or.inr ⟨revision, _, rfl, isHotfix, isAutomated, priorityChanged, hclass, rfl⟩
  · split_ifs
    · exact leaves_broadcastQueueUpdate
    · exact Leaves.ret ()

theorem leaves_notifyPositionAfterAdd (isHotfix : Bool) (positionsBefore : List (ℕ × ℕ))
    (oldTotal : ℕ) :
    (notifyPositionAfterAdd settings event.iid isHotfix positionsBefore oldTotal).Leaves
      (permits settings event) := by
  have hinitial : (QueuePositionNotifier.notifyInitialPosition settings event.iid).Leaves
      (permits settings event) :=
    leaves_of_tends (QueuePositionNotifier.tends_notifyInitialPosition _)
  unfold notifyPositionAfterAdd
  split_ifs
  · exact leaves_logged (hinitial.bind fun _ ↦ Leaves.ret ())
  · refine leaves_logged (hinitial.bind fun _ ↦ ?_)
    exact leaves_of_tends (QueuePositionNotifier.tends_notifyAffectedMrsAfterMrAdded _ _ _ _)
  · exact Leaves.ret ()

theorem leaves_addFetched {announce : Prog Unit}
    (hannounce : announce.Leaves (permits settings event)) :
    (addFetched settings event announce).Leaves (permits settings event) := by
  have hstale : (staleEnqueue settings event).Leaves (permits settings event) := by
    unfold staleEnqueue
    split
    · exact Leaves.ret false
    · exact Leaves.bind (leaves_other rfl) fun _ ↦ Leaves.ret _
  refine hstale.bind fun stale ↦ ?_
  split_ifs
  · exact Leaves.ret ()
  · refine Leaves.bind
      (leaves_of_tends QueuePositionNotifier.tends_capturePositionsIfEnabled) fun before ↦ ?_
    refine Leaves.bind (leaves_other rfl) fun mr ↦ ?_
    split_ifs
    · exact Leaves.ret ()
    · refine Leaves.bind (leaves_other rfl) fun _ ↦ hannounce.bind fun _ ↦ ?_
      exact leaves_notifyPositionAfterAdd _ _ _

theorem leaves_handleLabeled :
    (handleLabeled settings event).Leaves (permits settings event) := by
  unfold handleLabeled refreshAutomated
  split_ifs
  · split
    · exact Leaves.throw _
    · exact Leaves.ret ()
    · refine Leaves.bind (leaves_other rfl) fun item ↦ ?_
      split_ifs
      · exact leaves_refreshQueueItemMetadata
      · exact Leaves.ret ()
  · refine Leaves.bind (leaves_other rfl) fun existing ↦ ?_
    split_ifs
    · exact leaves_refreshQueueItemMetadata
    · exact leaves_addFetched (Leaves.ret ())

theorem leaves_reconcile : (reconcile settings event).Leaves (permits settings event) := by
  refine Leaves.bind (leaves_other rfl) fun item ↦ ?_
  split_ifs
  · exact leaves_refreshQueueItemMetadata
  · exact Leaves.ret ()
  · exact leaves_addFetched leaves_broadcastQueueUpdate
  · exact Leaves.ret ()

theorem leaves_removeQueueLabel (mrIid : ℕ) :
    (removeQueueLabel settings mrIid).Leaves (permits settings event) :=
  leaves_logged (Leaves.bind (leaves_other rfl) fun _ ↦ Leaves.ret ())

theorem leaves_completeDirectly (item : QueueItem) (outcome : Outcome) :
    (completeDirectly settings item event.iid outcome).Leaves (permits settings event) := by
  refine Leaves.bind (leaves_other rfl) fun completed ↦ ?_
  split_ifs
  · exact leaves_removeQueueLabel _
  · exact Leaves.ret ()

theorem keeps_create : (MRStateMachine.create settings event.iid event.targetBranch).Keeps
    (permits settings event) fun _ ↦ True := by
  refine Keeps.bind ((leaves_other rfl).keeps _) fun item ↦ ?_
  cases item with
  | some item =>
      refine Keeps.bind ?_ fun _ ↦ Keeps.update fun _ _ ↦ trivial
      rw [MRStateMachine.onEnter, if_pos rfl]
      exact Keeps.update fun _ _ ↦ trivial
  | none =>
      refine Keeps.bind ?_ fun _ ↦ Keeps.bind (Keeps.update fun _ _ ↦ trivial) fun _ ↦
        Keeps.update fun _ _ ↦ trivial
      exact MRStateMachine.keeps_onEnter (K := fun _ ↦ True) enters_permits (by simp) trivial
        trivial

theorem keeps_markRemoved (item : QueueItem) (reason : RemovalReason) :
    (markRemoved settings event item reason).Keeps (permits settings event) fun _ ↦ True := by
  refine Keeps.bind keeps_create fun _ ↦ ?_
  refine Keeps.handle (MRStateMachine.keeps_triggerMarkRemoved enters_permits reason) fun e ↦ ?_
  split_ifs
  · exact (leaves_completeDirectly _ _).keeps _
  · exact Keeps.throw e

theorem keeps_handleUnlabeled :
    (handleUnlabeled settings event).Keeps (permits settings event) fun _ ↦ True := by
  refine Keeps.bind ((leaves_other rfl).keeps _) fun item ↦ ?_
  split_ifs
  · cases item with
    | none => exact Keeps.ret ()
    | some item =>
        exact Keeps.bind (keeps_markRemoved item _) fun _ ↦ leaves_broadcastQueueUpdate.keeps _
  · exact leaves_refreshQueueItemMetadata.keeps _

theorem keeps_finishMerging (item : QueueItem) :
    (finishMerging settings event item).Keeps (permits settings event) fun _ ↦ True := by
  refine Keeps.ensuring (Keeps.handle ?_ fun e ↦ ?_) (leaves_broadcastQueueUpdate.keeps _)
  · exact MRStateMachine.keeps_fire enters_permits (by decide)
  · split_ifs
    · exact (leaves_completeDirectly _ _).keeps _
    · exact Keeps.throw e

theorem keeps_completeMerged (item : QueueItem) :
    (completeMerged settings event item).Keeps (permits settings event) fun _ ↦ True := by
  refine Keeps.bind
    ((leaves_of_tends QueuePositionNotifier.tends_capturePositionsIfEnabled).keeps _) fun _ ↦ ?_
  refine Keeps.bind ((leaves_other rfl).keeps _) fun mergedAt ↦ ?_
  refine Keeps.bind ((leaves_other rfl).keeps _) fun finish ↦ ?_
  refine Keeps.bind (QueueCompletion.keeps_complete (K := fun _ ↦ True) enters_permits _ _)
    fun _ ↦ ?_
  exact leaves_broadcastQueueUpdate.keeps _

theorem keeps_handleMerge :
    (handleMerge settings event).Keeps (permits settings event) fun _ ↦ True := by
  refine Keeps.bind ((leaves_other rfl).keeps _) fun item ↦ ?_
  cases item with
  | none => exact Keeps.ret ()
  | some item =>
      refine Keeps.bind keeps_create fun _ ↦ ?_
      refine Keeps.bind (keeps_machine (K := fun _ ↦ True)) fun m ↦ ?_
      split
      · exact keeps_finishMerging item
      · exact keeps_completeMerged item
      · exact keeps_completeMerged item
      · exact keeps_completeMerged item
      · exact Keeps.ret ()
      · exact Keeps.ret ()
      · exact Keeps.ret ()

theorem keeps_handleClose :
    (handleClose settings event).Keeps (permits settings event) fun _ ↦ True := by
  refine Keeps.bind ((leaves_other rfl).keeps _) fun item ↦ ?_
  cases item with
  | none => exact Keeps.ret ()
  | some item =>
      exact Keeps.bind (keeps_markRemoved item _) fun _ ↦ leaves_broadcastQueueUpdate.keeps _

theorem keeps_dispatch :
    (dispatch settings event).Keeps (permits settings event) fun _ ↦ True := by
  unfold dispatch
  split
  · exact leaves_handleLabeled.keeps _
  · exact keeps_handleUnlabeled
  · exact keeps_handleMerge
  · exact keeps_handleClose
  · unfold handleUpdate
    split_ifs
    · exact keeps_handleUnlabeled
    · exact leaves_reconcile.keeps _
  · exact Keeps.ret ()

/-- Whatever its action, a webhook classifies a row only by its own refresh. -/
theorem keeps_handle : (handle settings event).Keeps (permits settings event) fun _ ↦ True := by
  unfold handle
  split
  · exact Keeps.ret ()
  · refine Keeps.bind (leaves_resumeCompletion.keeps _) fun handled ↦ ?_
    split_ifs
    · exact Keeps.ret ()
    · exact keeps_dispatch

end MRWebhookHandler

/-! ## The tasks -/

/-- A delivery of a webhook, or a transaction of any other task, which leaves the classes
alone. -/
inductive LabelTask
  | webhook (event : MergeRequestEvent)
  | transaction (op : { op : QueueOp // op.reclassifies = false })
  deriving DecidableEq

def LabelTask.body (settings : Settings) : LabelTask → Prog Unit
  | webhook event => MRWebhookHandler.handle settings event
  | transaction op => do
      let _ ← Prog.db op.1

def LabelTask.permits (settings : Settings) : LabelTask → Op → Prop
  | webhook event => MRWebhookHandler.permits settings event
  | transaction op => fun op' ↦ op' = .db op.1

def labelSystem (settings : Settings) : System Op Op.Answer Local PyError where
  World := World
  Choice := Choice
  Entry := LabelTask
  exec := World.exec settings.qm
  body := LabelTask.body settings
  init := fun _ ↦ {}
  arrive := fun _ w ↦ w
  crash := fun w ↦ { w with locks := [] }

section Runs

variable {settings : Settings}

theorem keeps_body (task : LabelTask) :
    (task.body settings).Keeps (task.permits settings) fun _ ↦ True := by
  cases task with
  | webhook event => exact MRWebhookHandler.keeps_handle
  | transaction op => exact Keeps.bind (Keeps.call rfl) fun _ ↦ Keeps.ret ()

/-- Every operation of a run is one that its task may ask for. -/
theorem permits_of_labelEvents {c : Config (labelSystem settings)}
    (hc : c.Asking (fun (task : LabelTask) _ op ↦ task.permits settings op) fun _ _ _ ↦ True)
    {moves : List (Move (labelSystem settings))} :
    ∀ e ∈ c.events moves, e.entry.permits settings e.op :=
  Config.Asking.permits_of_mem_events (fun task ↦ keeps_body task {} trivial) hc
    fun _ _ ↦ trivial

/-! ## What a step shows -/

/-- The row shows the labels and the class that they have. -/
def Shows (settings : Settings) (labels : List String) (r : MergeRequestRow) : Prop :=
  ∃ isHotfix isAutomated,
    QueueMetadataUpdater.classifyLabels settings labels = .ok (isHotfix, isAutomated) ∧
    Says isHotfix isAutomated labels r

theorem Shows.labels_eq {labels labels' : List String} {r : MergeRequestRow}
    (h : Shows settings labels r) (h' : Shows settings labels' r) : labels = labels' := by
  obtain ⟨_, _, -, -, -, hsays⟩ := h
  obtain ⟨_, _, -, -, -, hsays'⟩ := h'
  rcases hsays with hjson | ⟨hnull, hempty⟩
  · rcases hsays' with hjson' | ⟨hnull', -⟩
    · exact SavedLabels.json.inj (hjson.symm.trans hjson')
    · cases hjson.symm.trans hnull'
  · rcases hsays' with hjson' | ⟨-, hempty'⟩
    · cases hnull.symm.trans hjson'
    · rw [hempty, hempty']

theorem Shows.of_kept {labels : List String} {r r' : MergeRequestRow}
    (hkept : QueueOp.MetadataKept r r') : Shows settings labels r' ↔ Shows settings labels r := by
  unfold Shows Says
  rw [hkept.isHotfix, hkept.isAutomated, hkept.labels]

/-- The refresh of the webhook finds the row under the revision that it has read, and is
committed. -/
def Applies (settings : Settings) (queueId : ℕ) (event : MergeRequestEvent)
    (e : Event (labelSystem settings)) : Prop :=
  e.entry = .webhook event ∧ ∃ version q now tokens a,
    e.op = .db q ∧ RefreshOf settings event (queueId, version) q ∧
    q.exec settings.qm now tokens e.before.db = .ok (a, e.after.db) ∧
    ∃ r ∈ e.before.db.mergeRequests.rows,
      Current settings.gitlabProjectId event.iid (queueId, version) r

/-- A step keeps what a row shows, unless it applies a webhook to the row. -/
def LabelStep (settings : Settings) (e : Event (labelSystem settings))
    (r r' : MergeRequestRow) : Prop :=
  (∃ event, Applies settings r.id event e ∧ Shows settings event.labels r') ∨
    ((∀ event, ¬ Applies settings r.id event e) ∧ QueueOp.MetadataKept r r')

open KeyedTable (Evolves)

section Steps

variable {e : Event (labelSystem settings)} {r r' : MergeRequestRow}

theorem shows_of_refreshed {labels : List String} {isHotfix isAutomated : Bool}
    (hclass : QueueMetadataUpdater.classifyLabels settings labels = .ok (isHotfix, isAutomated))
    (h : Refreshed isHotfix isAutomated labels r r') : Shows settings labels r' :=
  ⟨isHotfix, isAutomated, hclass, h.isHotfix, h.isAutomated, Or.inl h.labels⟩

/-- A refresh that is applied is shown. -/
theorem shows_of_applies {event : MergeRequestEvent}
    (hr : r ∈ e.before.db.mergeRequests.rows) (hr' : r' ∈ e.after.db.mergeRequests.rows)
    (hid : r'.id = r.id) (h : Applies settings r.id event e) : Shows settings event.labels r' := by
  obtain ⟨-, version, q, now, tokens, a, -, hrefresh, hexec, row, hrow, hcurrent⟩ := h
  obtain ⟨isHotfix, isAutomated, priorityChanged, hclass, rfl⟩ := hrefresh
  obtain rfl : row = r := e.before.db.mergeRequests.eq_of_rowId_eq hrow hr hcurrent.id
  obtain ⟨hupdated, -⟩ := (updateHotfixStatus_updated hclass hexec).1.of_rowId_eq hr hr' hid
  rcases hupdated with ⟨-, -, hrefreshed⟩ | ⟨hsame, hkept⟩
  · exact shows_of_refreshed hclass hrefreshed
  · have hsays : Says isHotfix isAutomated event.labels row := by
      by_contra hnews
      exact hsame ⟨hcurrent, hnews⟩
    exact (Shows.of_kept hkept).mpr ⟨isHotfix, isAutomated, hclass, hsays⟩

/-- A step that applies no webhook to the row keeps what it shows. -/
theorem kept_of_not_applies {q : QueueOp} {now : ℤ} {tokens : ℕ → Uuid} {a : q.Answer}
    (hr : r ∈ e.before.db.mergeRequests.rows) (hr' : r' ∈ e.after.db.mergeRequests.rows)
    (hid : r'.id = r.id) (hop : e.op = .db q) (hpermits : e.entry.permits settings (.db q))
    (hexec : q.exec settings.qm now tokens e.before.db = .ok (a, e.after.db))
    (hnone : ∀ event, ¬ Applies settings r.id event e) : QueueOp.MetadataKept r r' := by
  have hother (h : q.reclassifies = false) : QueueOp.MetadataKept r r' :=
    QueueOp.metadataKept_of_rowChange ((QueueOp.exec_evolves hexec).of_rowId_eq hr hr' hid) h
  cases hentry : e.entry with
  | transaction op =>
      rw [hentry] at hpermits
      obtain rfl : q = op.1 := Op.db.inj hpermits
      exact hother op.2
  | webhook event =>
      rw [hentry] at hpermits
      rcases hpermits with hplain | ⟨⟨id, version⟩, q', hq', hrefresh⟩
      · exact hother hplain
      · obtain rfl : q = q' := Op.db.inj hq'
        have hrefresh' := hrefresh
        obtain ⟨isHotfix, isAutomated, priorityChanged, hclass, rfl⟩ := hrefresh
        obtain ⟨hupdated, -⟩ := (updateHotfixStatus_updated hclass hexec).1.of_rowId_eq hr hr' hid
        rcases hupdated with ⟨hcurrent, -, -⟩ | ⟨-, hkept⟩
        · obtain rfl : r.id = id := hcurrent.id
          exact absurd
            ⟨hentry, version, _, now, tokens, a, hop, hrefresh', hexec, r, hr, hcurrent⟩
            (hnone event)
        · exact hkept

end Steps

/-- Transactions of a run, event by event. -/
theorem exec_of_labelEvent {c : Config (labelSystem settings)}
    {moves : List (Move (labelSystem settings))} {e : Event (labelSystem settings)}
    (he : e ∈ c.events moves) :
    e.after.db = e.before.db ∨ ∃ q now tokens a, e.op = .db q ∧
      q.exec settings.qm now tokens e.before.db = .ok (a, e.after.db) := by
  obtain ⟨choice, hexec⟩ := Config.exec_of_mem_events he
  rcases World.exec_db_cases hexec with hsame | ⟨q, a, hop, hq⟩
  · exact Or.inl hsame
  · exact Or.inr ⟨q, _, _, a, hop, hq⟩

theorem labelStep_of_event {c : Config (labelSystem settings)}
    {moves : List (Move (labelSystem settings))} {e : Event (labelSystem settings)}
    {r r' : MergeRequestRow} (he : e ∈ c.events moves)
    (hpermits : e.entry.permits settings e.op) (hr : r ∈ e.before.db.mergeRequests.rows)
    (hr' : r' ∈ e.after.db.mergeRequests.rows) (hid : r'.id = r.id) :
    LabelStep settings e r r' := by
  by_cases happlies : ∃ event, Applies settings r.id event e
  · obtain ⟨event, happlies⟩ := happlies
    exact Or.inl ⟨event, happlies, shows_of_applies hr hr' hid happlies⟩
  · have hnone : ∀ event, ¬ Applies settings r.id event e := not_exists.mp happlies
    refine Or.inr ⟨hnone, ?_⟩
    rcases exec_of_labelEvent he with hsame | ⟨q, now, tokens, a, hop, hexec⟩
    · obtain rfl := e.before.db.mergeRequests.eq_of_rowId_eq (hsame ▸ hr') hr hid
      exact QueueOp.MetadataKept.refl r'
    · rw [hop] at hpermits
      exact kept_of_not_applies hr hr' hid hop hpermits hexec hnone

theorem evolves_of_labelEvent {c : Config (labelSystem settings)}
    {moves : List (Move (labelSystem settings))} {e : Event (labelSystem settings)}
    (he : e ∈ c.events moves) :
    Evolves (fun _ _ ↦ True) (fun _ ↦ True) e.before.db.mergeRequests
      e.after.db.mergeRequests := by
  rcases exec_of_labelEvent he with hsame | ⟨q, now, tokens, a, -, hexec⟩
  · rw [hsame]
    exact Evolves.refl fun _ ↦ trivial
  · exact (QueueOp.exec_evolves hexec).mono (fun _ _ _ ↦ trivial) fun _ _ ↦ trivial

/-! ## Every run -/

/-- Of these steps, the last one that applies a webhook to the row applies this one. -/
def LastApplied (settings : Settings) (queueId : ℕ)
    (steps : List (Event (labelSystem settings))) (event : MergeRequestEvent) : Prop :=
  ∃ past e future, steps = past ++ e :: future ∧ Applies settings queueId event e ∧
    ∀ later ∈ future, ∀ other, ¬ Applies settings queueId other later

/-- No step applies a webhook to the row. -/
def NoneApplied (settings : Settings) (queueId : ℕ)
    (steps : List (Event (labelSystem settings))) : Prop :=
  ∀ e ∈ steps, ∀ event, ¬ Applies settings queueId event e

theorem LastApplied.cons {queueId : ℕ} {steps : List (Event (labelSystem settings))}
    {event : MergeRequestEvent} (h : LastApplied settings queueId steps event)
    (e : Event (labelSystem settings)) : LastApplied settings queueId (e :: steps) event := by
  obtain ⟨past, applied, future, rfl, happlies, hlast⟩ := h
  exact ⟨e :: past, applied, future, rfl, happlies, hlast⟩

theorem metadataKept_trans {a b c : MergeRequestRow} (hab : QueueOp.MetadataKept a b)
    (hbc : QueueOp.MetadataKept b c) : QueueOp.MetadataKept a c where
  isHotfix := hbc.isHotfix.trans hab.isHotfix
  isAutomated := hbc.isAutomated.trans hab.isAutomated
  labels := hbc.labels.trans hab.labels
  metadataVersion := hbc.metadataVersion.trans hab.metadataVersion

theorem evolves_run (c : Config (labelSystem settings))
    (moves : List (Move (labelSystem settings))) :
    Evolves (fun _ _ ↦ True) (fun _ ↦ True) c.world.db.mergeRequests
      (c.run moves).world.db.mergeRequests := by
  refine Config.run_relates (S := labelSystem settings) (R := fun u v : World ↦
    Evolves (fun _ _ ↦ True) (fun _ ↦ True) u.db.mergeRequests v.db.mergeRequests)
    (fun _ ↦ Evolves.refl fun _ ↦ trivial) (fun _ _ _ huv hvw ↦ ?_)
    (fun _ _ ↦ Evolves.refl fun _ ↦ trivial) (fun _ ↦ Evolves.refl fun _ ↦ trivial)
    fun e he ↦ evolves_of_labelEvent he
  exact huv.comp hvw (fun _ _ _ _ _ ↦ trivial) (fun _ _ _ _ ↦ trivial) fun _ _ ↦ trivial

/-- At any moment of a run a row shows the webhook that was applied to it last. -/
theorem shown_after_run {c : Config (labelSystem settings)}
    {moves : List (Move (labelSystem settings))}
    (hpermits : ∀ e ∈ c.events moves, e.entry.permits settings e.op) {r r' : MergeRequestRow}
    (hr : r ∈ c.world.db.mergeRequests.rows)
    (hr' : r' ∈ (c.run moves).world.db.mergeRequests.rows) (hid : r'.id = r.id) :
    (∃ event, LastApplied settings r.id (c.events moves) event ∧ Shows settings event.labels r') ∨
      (NoneApplied settings r.id (c.events moves) ∧ QueueOp.MetadataKept r r') := by
  induction moves generalizing c r with
  | nil =>
      obtain rfl := c.world.db.mergeRequests.eq_of_rowId_eq hr' hr hid
      exact Or.inr ⟨by simp [NoneApplied], QueueOp.MetadataKept.refl r'⟩
  | cons move moves ih =>
      cases hevent : c.event move with
      | none =>
          have hsame : (c.apply move).world.db = c.world.db := by
            rcases Config.apply_of_event_eq_none hevent with ⟨entry, h⟩ | h | h
            · rw [h]
              rfl
            · rw [h]
              rfl
            · rw [h]
          rw [Config.events_cons, hevent, Option.toList_none, List.nil_append] at hpermits ⊢
          exact ih hpermits (hsame ▸ hr) hr' hid
      | some e =>
          have he : e ∈ c.events (move :: moves) := by
            rw [Config.events_cons, hevent]
            exact List.mem_append_left _ (List.mem_singleton.mpr rfl)
          have hstepPermits := hpermits e he
          obtain ⟨_, _, -, -, hbefore, happly⟩ := Config.exists_of_event hevent
          have hafter : (c.apply move).world = e.after := by rw [happly]
          rw [← hbefore] at hr
          have hlater := evolves_run (c.apply move) moves
          rw [hafter] at hlater
          have hgrows := (evolves_of_labelEvent he).nextId_le
          have hold : r'.id < e.after.db.mergeRequests.nextId := by
            rw [hid]
            exact (e.before.db.mergeRequests.below r hr).trans_le hgrows
          obtain ⟨middle, hmiddle, hmiddleId, -, -⟩ := hlater.of_rowId_lt hr' hold
          have hmiddleOf : middle.id = r.id := hmiddleId.symm.trans hid
          have hstep := labelStep_of_event he hstepPermits hr hmiddle hmiddleOf
          rw [Config.events_cons, hevent, Option.toList_some, List.singleton_append] at hpermits ⊢
          have hrest := ih (fun later hmem ↦ hpermits later (List.mem_cons_of_mem _ hmem))
            (hafter ▸ hmiddle) hr' hmiddleId
          rw [hmiddleOf] at hrest
          rcases hrest with ⟨event, hlast, hshows⟩ | ⟨hnone, hkept⟩
          · exact Or.inl ⟨event, hlast.cons e, hshows⟩
          · rcases hstep with ⟨event, happlies, hshows⟩ | ⟨hnot, hfirst⟩
            · have hlast : LastApplied settings r.id (e :: (c.apply move).events moves) event :=
                ⟨[], e, _, rfl, happlies, hnone⟩
              exact Or.inl ⟨event, hlast, (Shows.of_kept hkept).mpr hshows⟩
            · refine Or.inr ⟨?_, metadataKept_trans hfirst hkept⟩
              exact List.forall_mem_cons.mpr ⟨hnot, hnone⟩

/-! ## The newest webhook -/

/-- The webhooks about the merge request that a run delivers, each as often as it delivers it. -/
def delivered (mrIid : ℕ) (moves : List (Move (labelSystem settings))) : List MergeRequestEvent :=
  moves.filterMap fun
    | .start (.webhook event) => if event.iid = mrIid then some event else none
    | _ => none

/-- Every other one of the webhooks happened definitely before this one. -/
def Newest (events : List MergeRequestEvent) (newest : MergeRequestEvent) : Prop :=
  newest ∈ events ∧ ∀ event ∈ events, event ≠ newest →
    newest.updatedAt.any (fun start ↦ event.before start) = true

/-- The row ends up with the labels and the class of the newest webhook. -/
def FollowsNewest (settings : Settings) (mrIid : ℕ) (moves : List (Move (labelSystem settings)))
    (r' : MergeRequestRow) : Prop :=
  ∀ newest, Newest (delivered mrIid moves) newest → Shows settings newest.labels r'

/-- The last step that applies a webhook to the row brings these labels; a row that no step
applies a webhook to had them already. -/
def BringsLast (settings : Settings) (labels : List String)
    (steps : List (Event (labelSystem settings))) (r : MergeRequestRow) : Prop :=
  (∃ event, LastApplied settings r.id steps event ∧ event.labels = labels) ∨
    (NoneApplied settings r.id steps ∧ Shows settings labels r)

/-- Only one webhook is the last one applied. -/
theorem LastApplied.eq {queueId : ℕ} {steps : List (Event (labelSystem settings))}
    {event event' : MergeRequestEvent} (h : LastApplied settings queueId steps event)
    (h' : LastApplied settings queueId steps event') : event = event' := by
  obtain ⟨past, e, future, rfl, happlies, hlast⟩ := h
  obtain ⟨past', e', future', hsteps, happlies', hlast'⟩ := h'
  rcases List.append_eq_append_iff.mp hsteps with
    ⟨between, -, hbetween⟩ | ⟨between, -, hbetween⟩
  · rcases List.cons_eq_append_iff.mp hbetween with ⟨-, hsame⟩ | ⟨rest, -, hrest⟩
    · obtain rfl : e' = e := (List.cons.inj hsame).1
      exact LabelTask.webhook.inj (happlies.1.symm.trans happlies'.1)
    · have hmem : e' ∈ future := by
        rw [hrest]
        exact List.mem_append_right _ (List.mem_cons_self ..)
      exact absurd happlies' (hlast e' hmem event')
  · rcases List.cons_eq_append_iff.mp hbetween with ⟨-, hsame⟩ | ⟨rest, -, hrest⟩
    · obtain rfl : e = e' := (List.cons.inj hsame).1
      exact LabelTask.webhook.inj (happlies.1.symm.trans happlies'.1)
    · have hmem : e ∈ future' := by
        rw [hrest]
        exact List.mem_append_right _ (List.mem_cons_self ..)
      exact absurd happlies (hlast' e hmem event)

theorem LastApplied.not_noneApplied {queueId : ℕ} {steps : List (Event (labelSystem settings))}
    {event : MergeRequestEvent} (h : LastApplied settings queueId steps event) :
    ¬ NoneApplied settings queueId steps := by
  obtain ⟨past, e, future, rfl, happlies, -⟩ := h
  intro hnone
  exact hnone e (List.mem_append_right _ (List.mem_cons_self ..)) event happlies

/-- After a run, a row shows the labels that the last webhook applied to it brought. -/
theorem shows_iff_bringsLast {c : Config (labelSystem settings)}
    {moves : List (Move (labelSystem settings))}
    (hpermits : ∀ e ∈ c.events moves, e.entry.permits settings e.op) {r r' : MergeRequestRow}
    (hr : r ∈ c.world.db.mergeRequests.rows)
    (hr' : r' ∈ (c.run moves).world.db.mergeRequests.rows) (hid : r'.id = r.id)
    (labels : List String) :
    Shows settings labels r' ↔ BringsLast settings labels (c.events moves) r := by
  constructor
  · intro hshows
    rcases shown_after_run hpermits hr hr' hid with ⟨event, hlast, hshown⟩ | ⟨hnone, hkept⟩
    · exact Or.inl ⟨event, hlast, hshown.labels_eq hshows⟩
    · exact Or.inr ⟨hnone, (Shows.of_kept hkept).mp hshows⟩
  · rintro (⟨event, hlast, rfl⟩ | ⟨hnone, hshows⟩)
    · rcases shown_after_run hpermits hr hr' hid with ⟨last, hlast', hshown⟩ | ⟨hnone, -⟩
      · rw [hlast.eq hlast']
        exact hshown
      · exact absurd hnone hlast.not_noneApplied
    · rcases shown_after_run hpermits hr hr' hid with ⟨event, hlast, -⟩ | ⟨-, hkept⟩
      · exact absurd hnone hlast.not_noneApplied
      · exact (Shows.of_kept hkept).mpr hshows

/-- A row follows the newest webhook in exactly the runs in which the last step that applies a
webhook to it brings the labels of the newest one. -/
theorem follows_newest_iff (settings : Settings) (mrIid : ℕ) (w : World)
    (moves : List (Move (labelSystem settings))) {r r' : MergeRequestRow}
    (hr : w.db.row settings.gitlabProjectId mrIid = some r)
    (hr' : r' ∈ (Config.run (S := labelSystem settings)
      { world := w } moves).world.db.mergeRequests.rows)
    (hid : r'.id = r.id) :
    FollowsNewest settings mrIid moves r' ↔
      ∀ newest, Newest (delivered mrIid moves) newest →
        BringsLast settings newest.labels
          (Config.events (S := labelSystem settings) { world := w } moves) r := by
  have hpermits : ∀ e ∈ Config.events (S := labelSystem settings) { world := w } moves,
      e.entry.permits settings e.op := permits_of_labelEvents ⟨by simp⟩
  have hmem : r ∈ w.db.mergeRequests.rows := KeyedTable.mem_of_byKey hr
  refine forall_congr' fun newest ↦ imp_congr_right fun _ ↦ ?_
  exact shows_iff_bringsLast hpermits hmem hr' hid newest.labels

end Runs

/-! ### Labels that an old webhook brings back -/

def labelSettings : Settings where
  gitlabProjectId := 1
  rounds := 1

def relabeling (messageId : String) (labels : List String) (updatedAt : ℤ) :
    MergeRequestEvent where
  iid := 7
  title := "Fix the build"
  state := .opened
  action := .update
  targetBranch := "master"
  userId := 3
  labels := labels
  labelChanges := some { previous := ["merge_queue", "urgent"], current := labels }
  updatedAt := some updatedAt
  messageId := some messageId

/-- The webhook is handled by itself, as the task with this number. -/
def handling (thread : ℕ) (event : MergeRequestEvent) :
    List (Move (labelSystem labelSettings)) :=
  .start (.webhook event) ::
    List.replicate 20 (.step thread { gitlab := answersFor (waitingMr 7) })

/-- The webhook about the hotfix label is handled, and then one that had failed before. -/
def lateRelabeling : List (Move (labelSystem labelSettings)) :=
  handling 0 (relabeling "newer" ["merge_queue", "hotfix"] 200) ++
    handling 1 (relabeling "older" ["merge_queue"] 100)

def relabeled : Config (labelSystem labelSettings) :=
  Config.run { world := { db := sampleDatabase } } lateRelabeling

def allReturned (c : Config (labelSystem labelSettings)) : Bool :=
  c.threads.all fun thread ↦ match thread.2 with
    | .done (.ok _) _ => true
    | _ => false

theorem newest_relabeling :
    Newest (delivered 7 lateRelabeling) (relabeling "newer" ["merge_queue", "hotfix"] 200) := by
  have hdelivered : delivered 7 lateRelabeling =
      [relabeling "newer" ["merge_queue", "hotfix"] 200,
        relabeling "older" ["merge_queue"] 100] := by decide
  rw [hdelivered]
  refine ⟨by simp, fun event hmem hother ↦ ?_⟩
  rcases List.mem_pair.mp hmem with rfl | rfl
  · exact absurd rfl hother
  · rfl

/-- No row shows the hotfix label in the end. -/
theorem not_followsNewest {r' : MergeRequestRow}
    (hr' : r' ∈ relabeled.world.db.mergeRequests.rows) :
    ¬ FollowsNewest labelSettings 7 lateRelabeling r' := by
  have hlabels : relabeled.world.db.mergeRequests.rows.all
      (fun r' ↦ r'.labels = .json ["merge_queue"]) = true := by
    decide +kernel
  intro hfollows
  have hold : r'.labels = .json ["merge_queue"] := by
    simpa using List.all_eq_true.mp hlabels r' hr'
  obtain ⟨_, _, -, -, -, hjson | ⟨hnull, -⟩⟩ := hfollows _ newest_relabeling
  · have hsame := SavedLabels.json.inj (hold.symm.trans hjson)
    revert hsame
    decide
  · cases hold.symm.trans hnull

theorem relabeled_waits : ∃ r' ∈ relabeled.world.db.mergeRequests.rows,
    r'.id = sampleRow.id ∧ r'.status = .queued := by
  have hwaits : relabeled.world.db.mergeRequests.rows.any
      (fun r' ↦ r'.id = sampleRow.id && r'.status = .queued) = true := by
    decide +kernel
  obtain ⟨r', hr', hboth⟩ := List.any_eq_true.mp hwaits
  exact ⟨r', hr', by simpa using hboth⟩

/-- Both webhooks are handled without an exception and the row waits on, with the older labels. -/
theorem older_labels_come_back :
    allReturned relabeled = true ∧
      ∃ r' ∈ relabeled.world.db.mergeRequests.rows, r'.id = sampleRow.id ∧ r'.status = .queued ∧
        ¬ FollowsNewest labelSettings 7 lateRelabeling r' := by
  obtain ⟨r', hr', hid, hqueued⟩ := relabeled_waits
  exact ⟨by decide +kernel, r', hr', hid, hqueued, not_followsNewest hr'⟩

/-- There some newest webhook does not bring its labels last. -/
theorem newest_not_brought_last :
    ¬ ∀ newest, Newest (delivered 7 lateRelabeling) newest →
      BringsLast labelSettings newest.labels
        (Config.events (S := labelSystem labelSettings) { world := { db := sampleDatabase } }
          lateRelabeling) sampleRow := by
  intro hlast
  obtain ⟨r', hr', hid, -⟩ := relabeled_waits
  have hrow : sampleDatabase.row labelSettings.gitlabProjectId 7 = some sampleRow := by decide
  have hrun := hr'
  unfold relabeled at hrun
  have hiff := follows_newest_iff labelSettings 7 { db := sampleDatabase } lateRelabeling hrow
    hrun hid
  exact not_followsNewest hr' (hiff.mpr hlast)

end MergeQueue
