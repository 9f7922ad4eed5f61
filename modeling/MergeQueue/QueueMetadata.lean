import MergeQueue.Notifier
import MergeQueue.PriorityOrder

/-!
# Refreshing the labels of a queued merge request

A refresh reads the row, decides whether its labels say something new, and writes
them under the identity and the version it has read.  Refreshes run beside each
other and beside any transactions that complete rows and add them again.
-/

namespace MergeQueue

open Interleave (Program System Config Event Move)
open Interleave.Program (Leaves)
open QueueManager

namespace QueueMetadataUpdater

variable (settings : Settings)

/-- The class that the labels give under the current policy. -/
def classifyLabels (labels : List String) : Except QueueError (Bool × Bool) :=
  settings.qm.classifyLabels settings.gitlabProjectId labels
    (labels.contains settings.hotfixLabel)

def sameLabels (saved labels : List String) : Bool := saved ⊆ labels ∧ labels ⊆ saved

def refreshItem (mrIid : ℕ) (labels : List String) (expectedRevision : Option (ℕ × ℕ))
    (admissionKey : Option String) : Prog Bool := do
  let found ← Prog.getQueueItem settings.gitlabProjectId mrIid
  match found with
  | none => pure false
  | some item =>
      let revision := (item.queueId, item.metadataVersion)
      if item.state.active = false then pure false
      else if expectedRevision.any (· ≠ revision) then pure false
      else
        match classifyLabels settings labels with
        | .error e => throw (.queue e)
        | .ok (isHotfix, isAutomated) =>
            let priorityChanged := decide
              (effectivePriority item.isHotfix item.isAutomated ≠
                effectivePriority isHotfix isAutomated)
            if !priorityChanged && sameLabels item.labels labels && admissionKey.isNone then
              pure false
            else
              Prog.db (.updateHotfixStatus settings.gitlabProjectId mrIid isHotfix labels
                (some revision) priorityChanged admissionKey (some isAutomated))

def retryPending : Prog Unit :=
  if settings.positionNotifier then QueuePositionNotifier.retryPending settings else pure ()

def refresh (mrIid : ℕ) (labels : List String) (expectedRevision : Option (ℕ × ℕ))
    (notify : Bool) (admissionKey : Option String) : Prog Bool :=
  Prog.withLock (.metadata settings.gitlabProjectId) do
    let updated ← refreshItem settings mrIid labels expectedRevision admissionKey
    if notify then retryPending settings
    return updated

end QueueMetadataUpdater

/-! ## The tasks -/

/-- A refresh, or a transaction of any other task, which leaves the classes alone. -/
inductive MetadataTask
  | refresh (mrIid : ℕ) (labels : List String) (expectedRevision : Option (ℕ × ℕ))
      (notify : Bool) (admissionKey : Option String)
  | transaction (op : { op : QueueOp // op.reclassifies = false })
  deriving DecidableEq

def MetadataTask.body (settings : Settings) : MetadataTask → Prog Unit
  | refresh mrIid labels expectedRevision notify admissionKey => do
      let _ ← QueueMetadataUpdater.refresh settings mrIid labels expectedRevision notify
        admissionKey
  | transaction op => do
      let _ ← Prog.db op.1

def metadataSystem (settings : Settings) : System Op Op.Answer Local PyError where
  World := World
  Choice := Choice
  Entry := MetadataTask
  exec := World.exec settings.qm
  body := MetadataTask.body settings
  init := fun _ ↦ {}
  arrive := fun _ w ↦ w
  crash := fun w ↦ { w with locks := [] }

/-! ## What a task asks for -/

/-- What a task may ask for: a refresh delivers feedback only if it notifies, and
writes under the revision it was given. -/
def MetadataTask.permits (settings : Settings) : MetadataTask → Op → Prop
  | refresh mrIid labels expectedRevision notify admissionKey, op =>
      op = .acquire (.metadata settings.gitlabProjectId) ∨
      op = .release (.metadata settings.gitlabProjectId) ∨
      op = .db (.getQueueItem settings.gitlabProjectId mrIid) ∨
      (notify = true ∧ op.delivers = true) ∨
      ∃ isHotfix isAutomated revision priorityChanged,
        QueueMetadataUpdater.classifyLabels settings labels = .ok (isHotfix, isAutomated) ∧
        (∀ expected ∈ expectedRevision, revision = expected) ∧
        op = .db (.updateHotfixStatus settings.gitlabProjectId mrIid isHotfix labels
          (some revision) priorityChanged admissionKey (some isAutomated))
  | transaction op, op' => op' = .db op.1

section Permits

variable {settings : Settings} {mrIid : ℕ} {labels : List String}
  {expectedRevision : Option (ℕ × ℕ)} {notify : Bool} {admissionKey : Option String}

theorem refreshItem_leaves : Leaves
    (MetadataTask.permits settings
      (.refresh mrIid labels expectedRevision notify admissionKey))
    (QueueMetadataUpdater.refreshItem settings mrIid labels expectedRevision admissionKey) := by
  refine Leaves.bind (Prog.leaves_await (Or.inr (Or.inr (Or.inl rfl)))) fun found ↦ ?_
  cases found with
  | none => exact Leaves.ret _
  | some item =>
      simp only
      split_ifs with hactive hstale
      · exact Leaves.ret _
      · exact Leaves.ret _
      · cases hclass : QueueMetadataUpdater.classifyLabels settings labels with
        | error e => exact Leaves.throw _
        | ok classes =>
            simp only
            split_ifs
            · exact Leaves.ret _
            · apply Prog.leaves_await
              refine Or.inr (Or.inr (Or.inr (Or.inr ⟨_, _, _, _, hclass, ?_, rfl⟩)))
              intro expected hexpected
              rw [Option.mem_def.mp hexpected] at hstale
              simp only [Option.any_some, decide_eq_true_eq, ne_eq, not_not] at hstale
              exact hstale.symm

theorem refresh_leaves : Leaves
    (MetadataTask.permits settings
      (.refresh mrIid labels expectedRevision notify admissionKey))
    (QueueMetadataUpdater.refresh settings mrIid labels expectedRevision notify
      admissionKey) := by
  refine Prog.leaves_withLock (Or.inl rfl) (Or.inr (Or.inl rfl)) ?_
  refine refreshItem_leaves.bind fun updated ↦ ?_
  cases hnotify : notify with
  | false => exact Leaves.ret _
  | true =>
      refine Leaves.bind ?_ fun _ ↦ Leaves.ret _
      simp only [QueueMetadataUpdater.retryPending]
      split_ifs
      · exact QueuePositionNotifier.delivers_retryPending.mono fun op hop ↦
          Or.inr (Or.inr (Or.inr (Or.inl ⟨rfl, hop⟩)))
      · exact Leaves.ret _

theorem body_leaves (task : MetadataTask) :
    Leaves (task.permits settings) (task.body settings) := by
  cases task with
  | refresh => exact refresh_leaves.bind fun _ ↦ Leaves.ret _
  | transaction op =>
      have hop : MetadataTask.permits settings (.transaction op) (.db op.1) := rfl
      exact (Prog.leaves_await hop).bind fun _ ↦ Leaves.ret _

/-- Every operation of a run is one that its task may ask for. -/
theorem permits_of_run {w : World} {moves : List (Move (metadataSystem settings))}
    {e : Event (metadataSystem settings)}
    (he : e ∈ Config.events (S := metadataSystem settings) { world := w } moves) :
    e.entry.permits settings e.op := by
  have hbody : ∀ task : MetadataTask, (task.body settings {}).Asks (fun _ _ ↦ True)
      (fun _ op ↦ task.permits settings op) (fun _ _ ↦ True) fun _ _ ↦ True := by
    intro task
    exact (body_leaves task (fun _ ↦ True) {} trivial).mono (fun _ _ h ↦ h.2)
      (fun _ _ _ ↦ trivial) fun _ _ _ ↦ trivial
  have hstart : Config.Asking (S := metadataSystem settings)
      (fun task _ op ↦ task.permits settings op) (fun _ _ _ ↦ True) { world := w } := ⟨by simp⟩
  exact Config.Asking.permits_of_mem_events hbody hstart (fun _ _ ↦ trivial) e he

end Permits

/-! ## What the conditional update writes -/

/-- The row carries the class and the labels already. -/
def Says (isHotfix isAutomated : Bool) (labels : List String) (r : MergeRequestRow) : Prop :=
  r.isHotfix = isHotfix ∧ r.isAutomated = isAutomated ∧
    (r.labels = .json labels ∨ (r.labels = .null ∧ labels = []))

/-- The active row of the merge request, under the revision that was read. -/
structure Current (projectId mrIid : ℕ) (revision : ℕ × ℕ) (r : MergeRequestRow) : Prop where
  projectId : r.projectId = projectId
  iid : r.iid = mrIid
  active : r.status.active = true
  id : r.id = revision.1
  version : r.metadataVersion = revision.2

/-- The class, the labels and the version were written together. -/
structure Refreshed (isHotfix isAutomated : Bool) (labels : List String)
    (r r' : MergeRequestRow) : Prop where
  isHotfix : r'.isHotfix = isHotfix
  isAutomated : r'.isAutomated = isAutomated
  labels : r'.labels = .json labels
  metadataVersion : r'.metadataVersion = r.metadataVersion + 1

section Update

open KeyedTable (Evolves)
open QueueOp (MetadataKept Feedback acknowledgeActiveAdmission_evolves stageFeedback_evolves)

variable {qm : QueueManager} {projectId mrIid : ℕ} {isHotfix isAutomated notifyPositions : Bool}
  {labels : List String} {revision : ℕ × ℕ} {admissionKey : Option String} {now : ℤ}
  {tokens : ℕ → Uuid} {db db' : Database} {changed : Bool}

/-- What the update does to a row, where nothing else is told. -/
def Updated (projectId mrIid : ℕ) (isHotfix isAutomated : Bool) (labels : List String)
    (revision : ℕ × ℕ) (r r' : MergeRequestRow) : Prop :=
  (Current projectId mrIid revision r ∧ ¬ Says isHotfix isAutomated labels r ∧
      Refreshed isHotfix isAutomated labels r r') ∨
    (¬ (Current projectId mrIid revision r ∧ ¬ Says isHotfix isAutomated labels r) ∧
      MetadataKept r r')

theorem Updated.of_kept {a b c : MergeRequestRow}
    (hab : Updated projectId mrIid isHotfix isAutomated labels revision a b)
    (hbc : MetadataKept b c) :
    Updated projectId mrIid isHotfix isAutomated labels revision a c := by
  rcases hab with ⟨hcurrent, hnews, hwritten⟩ | ⟨hother, hkept⟩
  · refine Or.inl ⟨hcurrent, hnews, ?_, ?_, ?_, ?_⟩
    · rw [hbc.isHotfix, hwritten.isHotfix]
    · rw [hbc.isAutomated, hwritten.isAutomated]
    · rw [hbc.labels, hwritten.labels]
    · rw [hbc.metadataVersion, hwritten.metadataVersion]
  · refine Or.inr ⟨hother, ?_, ?_, ?_, ?_⟩
    · rw [hbc.isHotfix, hkept.isHotfix]
    · rw [hbc.isAutomated, hkept.isAutomated]
    · rw [hbc.labels, hkept.labels]
    · rw [hbc.metadataVersion, hkept.metadataVersion]

/-- Classifying again gives the same class. -/
theorem classifyLabels_again {hotfix : Bool}
    (h : qm.classifyLabels projectId labels hotfix = .ok (isHotfix, isAutomated)) :
    ∃ automated, qm.classifyLabels projectId labels isHotfix = .ok (isHotfix, automated) ∧
      (if qm.projectPolicies.isNone then isAutomated else automated) = isAutomated := by
  unfold QueueManager.classifyLabels at h ⊢
  cases hpolicies : qm.projectPolicies with
  | none => exact ⟨false, rfl, rfl⟩
  | some policies =>
      rw [hpolicies] at h
      simp only at h ⊢
      cases hpolicy : policies projectId with
      | none =>
          rw [hpolicy] at h
          cases h
      | some policy =>
          rw [hpolicy] at h
          simp only [Except.ok.injEq, Prod.mk.injEq] at h ⊢
          exact ⟨isAutomated, h, rfl⟩

theorem coalesce_eq_iff {saved : SavedLabels} :
    (if saved = .null then SavedLabels.json [] else saved) = .json labels ↔
      saved = .json labels ∨ (saved = .null ∧ labels = []) := by
  cases saved with
  | null => simp [eq_comm]
  | json old => simp
  | unknown raw => simp

theorem hit_iff (r : MergeRequestRow) :
    (r.iid = mrIid && r.projectId = projectId && r.status.active &&
        ((some revision).all fun (id, version) ↦ r.id = id && r.metadataVersion = version) &&
        (r.isHotfix ≠ isHotfix || r.isAutomated ≠ isAutomated ||
          (if r.labels = .null then SavedLabels.json [] else r.labels) ≠ .json labels)) = true ↔
      Current projectId mrIid revision r ∧ ¬ Says isHotfix isAutomated labels r := by
  simp only [Says, ← coalesce_eq_iff, Bool.and_eq_true, Bool.or_eq_true, decide_eq_true_eq,
    Option.all_some, ne_eq]
  constructor
  · rintro ⟨⟨⟨⟨hiid, hproject⟩, hactive⟩, hid, hversion⟩, hnews⟩
    exact ⟨⟨hproject, hiid, hactive, hid, hversion⟩, by tauto⟩
  · rintro ⟨⟨hproject, hiid, hactive, hid, hversion⟩, hnews⟩
    exact ⟨⟨⟨⟨hiid, hproject⟩, hactive⟩, hid, hversion⟩, by tauto⟩

/-- The update writes under the revision alone, and stages feedback only where it
wrote something. -/
theorem updateHotfixStatus_updated {hotfix : Bool}
    (hclass : qm.classifyLabels projectId labels hotfix = .ok (isHotfix, isAutomated))
    (h : qm.updateHotfixStatus projectId mrIid isHotfix labels (some revision) notifyPositions
      admissionKey (some isAutomated) now tokens db = .ok (changed, db')) :
    Evolves
      (fun r r' ↦ Updated projectId mrIid isHotfix isAutomated labels revision r r' ∧
        (changed = false → r'.pendingNotification = r.pendingNotification))
      (fun _ ↦ False) db.mergeRequests db'.mergeRequests ∧
    (changed = true → ∃ r ∈ db.mergeRequests.rows, Current projectId mrIid revision r ∧
      ¬ Says isHotfix isAutomated labels r) := by
  obtain ⟨automated, hagain, hautomated⟩ := classifyLabels_again hclass
  unfold QueueManager.updateHotfixStatus at h
  obtain ⟨classes, hclasses, h⟩ := bind_eq_ok.mp h
  cases hagain.symm.trans hclasses
  simp only [Option.getD_some, hautomated] at h
  obtain ⟨table, hack, h⟩ := bind_eq_ok.mp h
  cases h
  have hwritten : Evolves
      (fun r r' ↦ Updated projectId mrIid isHotfix isAutomated labels revision r r' ∧
        r'.pendingNotification = r.pendingNotification)
      (fun _ ↦ False) db.mergeRequests table := by
    refine Evolves.comp
      (R := fun r r' ↦ Updated projectId mrIid isHotfix isAutomated labels revision r r' ∧
        r'.pendingNotification = r.pendingNotification)
      (Evolves.updateWhere_of ?_ ?_) (acknowledgeActiveAdmission_evolves hack) ?_
      (fun _ _ h _ ↦ h) fun _ h ↦ h
    · intro r _ hmiss
      refine ⟨Or.inr ⟨fun hhit ↦ ?_, MetadataKept.refl r⟩, rfl⟩
      rw [(hit_iff r).mpr hhit] at hmiss
      cases hmiss
    · intro r _ hhit
      obtain ⟨hcurrent, hnews⟩ := (hit_iff r).mp hhit
      exact ⟨Or.inl ⟨hcurrent, hnews, rfl, rfl, rfl, rfl⟩, rfl⟩
    · rintro a b c ⟨hab, hnote⟩ hbc
      rcases hbc with rfl | ⟨_, _, -, rfl⟩
      · exact ⟨hab, hnote⟩
      · exact ⟨hab.of_kept ⟨rfl, rfl, rfl, rfl⟩, hnote⟩
  constructor
  · simp only
    split
    · next hstaged =>
        refine hwritten.comp (S := Feedback) (N := fun _ ↦ False) (stageFeedback_evolves _ _ _)
          ?_ (fun _ _ h _ ↦ h) fun _ h ↦ h
        rintro a b c ⟨hab, -⟩ ⟨note, rfl⟩
        refine ⟨hab.of_kept ⟨rfl, rfl, rfl, rfl⟩, fun hunchanged ↦ ?_⟩
        rw [hunchanged] at hstaged
        cases hstaged
    · exact hwritten.mono (fun _ _ h ↦ ⟨h.1, fun _ ↦ h.2⟩) fun _ h ↦ h
  · intro hchanged
    obtain ⟨r, hr, hhit⟩ := List.any_eq_true.mp hchanged
    exact ⟨r, hr, (hit_iff r).mp hhit⟩

end Update

/-! ## Every run -/

open QueueOp (MetadataKept)

/-- A step of the task changes the class and the labels of a row only together, and
only as a refresh whose revision is the one of the row. -/
def MetadataStep (settings : Settings) (task : MetadataTask) (r r' : MergeRequestRow) : Prop :=
  MetadataKept r r' ∨
    ∃ mrIid labels expectedRevision notify admissionKey isHotfix isAutomated,
      task = .refresh mrIid labels expectedRevision notify admissionKey ∧
      (∀ revision ∈ expectedRevision, revision = (r.id, r.metadataVersion)) ∧
      r.projectId = settings.gitlabProjectId ∧ r.iid = mrIid ∧ r.status.active = true ∧
      QueueMetadataUpdater.classifyLabels settings labels = .ok (isHotfix, isAutomated) ∧
      ¬ Says isHotfix isAutomated labels r ∧ Refreshed isHotfix isAutomated labels r r'

/-- The revision is stale, or its row carries the class and the labels already. -/
def NoNews (settings : Settings) (mrIid : ℕ) (labels : List String) (revision : ℕ × ℕ)
    (db : Database) : Prop :=
  ∀ r ∈ db.mergeRequests.rows, Current settings.gitlabProjectId mrIid revision r →
    ∀ isHotfix isAutomated,
      QueueMetadataUpdater.classifyLabels settings labels = .ok (isHotfix, isAutomated) →
      Says isHotfix isAutomated labels r

/-- Feedback that was due has been delivered. -/
def Delivered (op : Op) (r r' : MergeRequestRow) : Prop :=
  ∃ projectId pending, op = .db (.clearPendingNotification projectId r.iid pending) ∧
    r.pendingNotification = some pending ∧ r'.pendingNotification = none

section Runs

variable {settings : Settings} {w : World} {moves : List (Move (metadataSystem settings))}
  {e : Event (metadataSystem settings)}

theorem MetadataStep.version_le {task : MetadataTask} {r r' : MergeRequestRow}
    (h : MetadataStep settings task r r') : r.metadataVersion ≤ r'.metadataVersion := by
  rcases h with hkept | ⟨_, _, _, _, _, _, _, -, -, -, -, -, -, -, hwritten⟩
  · exact hkept.metadataVersion.ge
  · rw [hwritten.metadataVersion]
    exact Nat.le_succ _

open KeyedTable (Evolves)

/-- A transaction that delivers clears feedback at most. -/
theorem delivered_of_exec {q : QueueOp} {now : ℤ} {tokens : ℕ → Uuid} {db db' : Database}
    {a : q.Answer} (hq : (Op.db q).delivers = true)
    (h : q.exec settings.qm now tokens db = .ok (a, db')) :
    Evolves
      (fun r r' ↦ MetadataKept r r' ∧
        (r'.pendingNotification = r.pendingNotification ∨ Delivered (.db q) r r'))
      (fun _ ↦ False) db.mergeRequests db'.mergeRequests := by
  have hsame : ∀ r : MergeRequestRow, MetadataKept r r ∧
      (r.pendingNotification = r.pendingNotification ∨ Delivered (.db q) r r) :=
    fun r ↦ ⟨MetadataKept.refl r, Or.inl rfl⟩
  cases q with
  | getQueueItem | getActiveQueue =>
      cases h
      exact Evolves.refl hsame
  | clearPendingNotification projectId mrIid pending =>
      cases h
      apply Evolves.updateWhere hsame
      · intro r _ hhit
        simp only [Bool.and_eq_true, decide_eq_true_eq] at hhit
        obtain ⟨⟨-, rfl⟩, hpending⟩ := hhit
        exact ⟨⟨rfl, rfl, rfl, rfl⟩, Or.inr ⟨projectId, pending, rfl, hpending, rfl⟩⟩
      · exact fun _ ↦ ⟨rfl, rfl⟩
  | _ => cases hq

/-- What a transaction of a task does to the rows that stay. -/
theorem metadataStep_of_permits {task : MetadataTask} {q : QueueOp} {now : ℤ}
    {tokens : ℕ → Uuid} {db db' : Database} {a : q.Answer}
    (hpermits : task.permits settings (.db q))
    (h : q.exec settings.qm now tokens db = .ok (a, db')) :
    Evolves (MetadataStep settings task) QueueOp.Fresh db.mergeRequests db'.mergeRequests := by
  cases task with
  | transaction op =>
      cases hpermits
      exact (QueueOp.exec_evolves h).mono
        (fun _ _ hchange ↦ Or.inl (QueueOp.metadataKept_of_rowChange hchange op.2)) fun _ hn ↦ hn
  | refresh mrIid labels expectedRevision notify admissionKey =>
      rcases hpermits with hop | hop | hop | ⟨-, hop⟩ |
        ⟨isHotfix, isAutomated, revision, priorityChanged, hclass, hexpected, hop⟩
      · cases hop
      · cases hop
      · cases hop
        cases h
        exact Evolves.refl fun r ↦ Or.inl (MetadataKept.refl r)
      · exact (delivered_of_exec hop h).mono (fun _ _ hstep ↦ Or.inl hstep.1) fun _ hn ↦ hn.elim
      · cases hop
        refine (updateHotfixStatus_updated hclass h).1.mono ?_ fun _ hn ↦ hn.elim
        rintro r r' ⟨⟨hcurrent, hnews, hwritten⟩ | ⟨-, hkept⟩, -⟩
        · refine Or.inr ⟨_, _, _, _, _, _, _, rfl, ?_, hcurrent.projectId, hcurrent.iid,
            hcurrent.active, hclass, hnews, hwritten⟩
          intro expected hmem
          rw [← hexpected expected hmem, hcurrent.id, hcurrent.version]
        · exact Or.inl hkept

/-- Without news a refresh writes nothing, and clears at most feedback it delivered. -/
theorem noNews_of_permits {mrIid : ℕ} {labels : List String} {revision : ℕ × ℕ} {notify : Bool}
    {admissionKey : Option String} {q : QueueOp} {now : ℤ} {tokens : ℕ → Uuid}
    {db db' : Database} {a : q.Answer}
    (hpermits : MetadataTask.permits settings
      (.refresh mrIid labels (some revision) notify admissionKey) (.db q))
    (h : q.exec settings.qm now tokens db = .ok (a, db'))
    (hnone : NoNews settings mrIid labels revision db) :
    Evolves
      (fun r r' ↦ MetadataKept r r' ∧
        (r'.pendingNotification = r.pendingNotification ∨
          (notify = true ∧ Delivered (.db q) r r')))
      (fun _ ↦ False) db.mergeRequests db'.mergeRequests := by
  rcases hpermits with hop | hop | hop | ⟨hnotify, hop⟩ |
    ⟨isHotfix, isAutomated, read, priorityChanged, hclass, hexpected, hop⟩
  · cases hop
  · cases hop
  · cases hop
    cases h
    exact Evolves.refl fun r ↦ ⟨MetadataKept.refl r, Or.inl rfl⟩
  · exact (delivered_of_exec hop h).mono
      (fun _ _ hstep ↦ ⟨hstep.1, hstep.2.imp_right fun hdone ↦ ⟨hnotify, hdone⟩⟩) fun _ hn ↦ hn
  · cases hop
    obtain rfl := hexpected revision rfl
    obtain ⟨hevolves, hchanged⟩ := updateHotfixStatus_updated hclass h
    have hunchanged : a = false := by
      by_contra hchange
      obtain ⟨r, hr, hcurrent, hnews⟩ := hchanged (by simpa using hchange)
      exact hnews (hnone r hr hcurrent _ _ hclass)
    refine ⟨hevolves.nextId_le, fun r' hr' ↦ ?_⟩
    rcases hevolves.source r' hr' with ⟨r, hr, hid, hkey, hupdated, hnote⟩ | hnew
    · refine Or.inl ⟨r, hr, hid, hkey, ?_, Or.inl (hnote hunchanged)⟩
      rcases hupdated with ⟨hcurrent, hnews, -⟩ | ⟨-, hkept⟩
      · exact absurd (hnone r hr hcurrent _ _ hclass) hnews
      · exact hkept
    · exact Or.inr hnew

/-- Transactions of a run, event by event. -/
theorem exec_of_event (he : e ∈ Config.events (S := metadataSystem settings) { world := w } moves) :
    e.after.db = e.before.db ∨ ∃ q now tokens a, e.op = .db q ∧
      q.exec settings.qm now tokens e.before.db = .ok (a, e.after.db) := by
  obtain ⟨choice, hexec⟩ := Config.exec_of_mem_events he
  rcases World.exec_db_cases hexec with hsame | ⟨q, a, hop, hq⟩
  · exact Or.inl hsame
  · exact Or.inr ⟨q, _, _, a, hop, hq⟩

theorem metadataStep_of_event
    (he : e ∈ Config.events (S := metadataSystem settings) { world := w } moves) :
    Evolves (MetadataStep settings e.entry) (fun _ ↦ True) e.before.db.mergeRequests
      e.after.db.mergeRequests := by
  rcases exec_of_event he with hsame | ⟨q, now, tokens, a, hop, hexec⟩
  · rw [hsame]
    exact Evolves.refl fun r ↦ Or.inl (MetadataKept.refl r)
  · have hpermits := permits_of_run he
    rw [hop] at hpermits
    exact (metadataStep_of_permits hpermits hexec).mono (fun _ _ h ↦ h) fun _ _ ↦ trivial

end Runs

/-- In the run `moves` from the world `w`, refreshes compare and swap. -/
structure ComparesAndSwaps (settings : Settings) (w : World)
    (moves : List (Move (metadataSystem settings))) : Prop where
  steps : ∀ e ∈ Config.events (S := metadataSystem settings) { world := w } moves,
    ∀ r ∈ e.before.db.mergeRequests.rows, ∀ r' ∈ e.after.db.mergeRequests.rows, r'.id = r.id →
      MetadataStep settings e.entry r r'
  noNews : ∀ e ∈ Config.events (S := metadataSystem settings) { world := w } moves,
    ∀ mrIid labels revision notify admissionKey,
      e.entry = .refresh mrIid labels (some revision) notify admissionKey →
      NoNews settings mrIid labels revision e.before.db →
      ∀ r ∈ e.before.db.mergeRequests.rows, ∀ r' ∈ e.after.db.mergeRequests.rows, r'.id = r.id →
        MetadataKept r r' ∧
          (r'.pendingNotification = r.pendingNotification ∨
            (notify = true ∧ Delivered e.op r r'))
  versions : ∀ before after, moves = before ++ after →
    ∀ r ∈ (Config.run (S := metadataSystem settings)
      { world := w } before).world.db.mergeRequests.rows,
    ∀ r' ∈ (Config.run (S := metadataSystem settings)
      { world := w } moves).world.db.mergeRequests.rows,
      r'.id = r.id → r.metadataVersion ≤ r'.metadataVersion

/-- Every run of refreshes and other transactions compares and swaps. -/
theorem comparesAndSwaps (settings : Settings) (w : World)
    (moves : List (Move (metadataSystem settings))) : ComparesAndSwaps settings w moves where
  steps := fun e he r hr r' hr' hid ↦ (metadataStep_of_event he).of_rowId_eq hr hr' hid
  noNews := by
    intro e he mrIid labels revision notify admissionKey hentry hnone r hr r' hr' hid
    rcases exec_of_event he with hsame | ⟨q, now, tokens, a, hop, hexec⟩
    · obtain rfl := e.before.db.mergeRequests.eq_of_rowId_eq (hsame ▸ hr') hr hid
      exact ⟨MetadataKept.refl r', Or.inl rfl⟩
    · have hpermits := permits_of_run he
      rw [hentry, hop] at hpermits
      rw [hop]
      exact (noNews_of_permits hpermits hexec hnone).of_rowId_eq hr hr' hid
  versions := by
    rintro before after rfl r hr r' hr' hid
    rw [Config.run_append] at hr'
    have hevolves : KeyedTable.Evolves
        (fun r r' : MergeRequestRow ↦ r.metadataVersion ≤ r'.metadataVersion) (fun _ ↦ True)
        (Config.run (S := metadataSystem settings) { world := w } before).world.db.mergeRequests
        (Config.run (Config.run (S := metadataSystem settings) { world := w } before)
          after).world.db.mergeRequests := by
      apply Config.run_relates (S := metadataSystem settings)
        (R := fun u v : World ↦ KeyedTable.Evolves
          (fun r r' : MergeRequestRow ↦ r.metadataVersion ≤ r'.metadataVersion) (fun _ ↦ True)
          u.db.mergeRequests v.db.mergeRequests)
      · exact fun _ ↦ KeyedTable.Evolves.refl fun _ ↦ le_rfl
      · exact fun _ _ _ huv hvw ↦ huv.comp hvw (fun _ _ _ ↦ le_trans) (fun _ _ _ _ ↦ trivial)
          fun _ _ ↦ trivial
      · exact fun _ _ ↦ KeyedTable.Evolves.refl fun _ ↦ le_rfl
      · exact fun _ ↦ KeyedTable.Evolves.refl fun _ ↦ le_rfl
      · intro e he
        have hmem : e ∈ Config.events (S := metadataSystem settings) { world := w }
            (before ++ after) := by
          rw [Config.events_append]
          exact List.mem_append_right _ he
        exact (metadataStep_of_event hmem).mono (fun _ _ h ↦ h.version_le) fun _ _ ↦ trivial
    exact hevolves.of_rowId_eq hr hr' hid

/-! ## A stale refresh that notifies -/

/-- One merge request waits, and feedback about it is due. -/
def dueDatabase : Database :=
  { sampleDatabase with
    mergeRequests := sampleDatabase.mergeRequests.updateWhere (fun _ ↦ true) fun r ↦
      { r with
        pendingNotification :=
          some { token := 1, status := .priorityChanged, oldPosition := 2 } } }

def staleRefresh : MetadataTask := .refresh 7 ["merge_queue"] (some (1, 5)) true none

def staleMoves : List (Move (metadataSystem { gitlabProjectId := 1, rounds := 1 })) :=
  .start staleRefresh :: List.replicate 9 (.step 0 { gitlab := answersFor (waitingMr 7) })

/-- The event changes the feedback of a row, in a table without a row of the version 5. -/
def changesFeedback (e : Event (metadataSystem { gitlabProjectId := 1, rounds := 1 })) : Bool :=
  e.before.db.mergeRequests.rows.all (fun r ↦ r.metadataVersion ≠ 5) &&
    e.before.db.mergeRequests.rows.any fun r ↦ e.after.db.mergeRequests.rows.any fun r' ↦
      r'.id = r.id && r'.pendingNotification ≠ r.pendingNotification

def isStaleRefresh : MetadataTask → Bool := fun task ↦ task = staleRefresh

/-- A refresh with a stale revision delivers the feedback that is due, and clears it. -/
theorem staleRefresh_delivers :
    ¬ ∀ (settings : Settings) (w : World) (moves : List (Move (metadataSystem settings))),
      ∀ e ∈ Config.events (S := metadataSystem settings) { world := w } moves,
      ∀ mrIid labels revision notify admissionKey,
        e.entry = .refresh mrIid labels (some revision) notify admissionKey →
        NoNews settings mrIid labels revision e.before.db →
        ∀ r ∈ e.before.db.mergeRequests.rows, ∀ r' ∈ e.after.db.mergeRequests.rows,
          r'.id = r.id → r'.pendingNotification = r.pendingNotification := by
  intro hclaim
  have hcleared : (Config.events (S := metadataSystem { gitlabProjectId := 1, rounds := 1 })
      { world := { db := dueDatabase } } staleMoves).any
        (fun e ↦ isStaleRefresh e.entry && changesFeedback e) = true := by
    decide +kernel
  obtain ⟨e, he, hboth⟩ := List.any_eq_true.mp hcleared
  simp only [Bool.and_eq_true, isStaleRefresh, changesFeedback, List.all_eq_true, List.any_eq_true,
    decide_eq_true_eq] at hboth
  obtain ⟨hentry, hversion, r, hr, r', hr', hid, hchanged⟩ := hboth
  refine hchanged (hclaim _ _ _ e he _ _ _ _ _ hentry ?_ r hr r' hr' hid)
  exact fun s hs hcurrent ↦ absurd hcurrent.version (hversion s hs)

end MergeQueue
