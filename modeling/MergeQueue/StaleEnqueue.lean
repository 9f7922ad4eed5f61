import MergeQueue.HistoryLoss
import MergeQueue.Undisturbed
import MergeQueue.WebhookHandler

/-!
# Enqueues that arrive late

A webhook that asks for an enqueue is compared with the end that the queue reports for
the merge request.  The history keeps the first archived lifecycle of a merge request,
and a removal from the queue leaves a row without an end, so the reported end need not
be the one of the latest lifecycle.
-/

namespace MergeQueue

open Interleave (Program)
open Interleave.Program (Finishes Leaves Reaches)
open QueueManager

/-! ## When lifecycles end -/

/-- The lifecycles that a call ends, each with the time of its end. -/
def Call.endings (call : Call) (w : QueueWorld) : List (MrKey × ℤ) :=
  (call.ended w).map (fun values ↦ (values.mrKey, values.finishedAt)) ++
    match call.op with
    | .removeFromQueue projectId mrIid =>
        ((w.db.row projectId mrIid).filter fun row ↦ row.status.active).toList.map
          fun row ↦ ((row.projectId, row.iid), call.now)
    | _ => []

/-- The time at which the latest lifecycle of a merge request ended. -/
def latestEnd (calls : List Call) (key : MrKey) : Option ℤ :=
  ((((steps calls .empty).flatMap fun step ↦ step.2.endings step.1).filter
    fun ending ↦ ending.1 = key).getLast?).map Prod.snd

/-- The first lifecycle of a merge request that was archived. -/
def QueueWorld.firstArchived (w : QueueWorld) (key : MrKey) : Option HistoryParams :=
  w.ended.find? fun values ↦ values.mrKey = key

/-- The history keeps the first archived lifecycle of every merge request. -/
def KeepsFirst (w : QueueWorld) : Prop :=
  ∀ key, (w.db.history.byKey key).map HistoryRow.values = w.firstArchived key

theorem KeepsFirst.apply {w : QueueWorld} (h : KeepsFirst w) (htracked : Tracked w) (call : Call) :
    KeepsFirst (call.apply w) := by
  intro key
  rcases htracked.history_apply call with ⟨-, hended, hhistory⟩ | ⟨values, -, hended, hhistory⟩
  · rw [QueueWorld.firstArchived, hended, hhistory]
    exact h key
  · rw [QueueWorld.firstArchived, hended, hhistory, List.find?_append]
    have hkey := h key
    rw [QueueWorld.firstArchived] at hkey
    cases htaken : w.db.history.byKey values.mrKey with
    | some r =>
        have hsame : w.db.history.insertOrIgnore (fun id ↦ ({ id, values } : HistoryRow)) =
            w.db.history := KeyedTable.insertOrIgnore_of_taken htaken
        rw [hsame, hkey]
        by_cases hvalues : values.mrKey = key
        · rw [← hkey, ← hvalues, htaken]
          rfl
        · simp [hvalues]
    | none =>
        rw [KeyedTable.byKey, KeyedTable.insertOrIgnore_rows_of_free htaken, List.find?_append,
          Option.map_or, ← KeyedTable.byKey, hkey, List.find?_singleton, List.find?_singleton]
        congr 1
        by_cases hvalues : (values.projectId, values.iid) = key <;>
          simp [HistoryParams.mrKey, hvalues]

theorem KeepsFirst.run {calls : List Call} {w : QueueWorld} (h : KeepsFirst w)
    (htracked : Tracked w) (hcalls : Permitted calls w) : KeepsFirst (run calls w) := by
  induction calls generalizing w with
  | nil => exact h
  | cons call calls ih => exact ih (h.apply htracked call) (htracked.apply hcalls.1) hcalls.2

theorem firstArchived_run {calls : List Call} (hcalls : Permitted calls .empty) (key : MrKey) :
    ((run calls .empty).db.history.byKey key).map HistoryRow.values =
      (run calls .empty).firstArchived key :=
  KeepsFirst.run (fun _ ↦ rfl) tracked_empty hcalls key

/-! ## The reported end -/

/-- The end that `get_mr_state` reports. -/
def reportedEnd (projectId mrIid : ℕ) (db : Database) : Option ℤ :=
  (getMrState projectId mrIid db).bind MrStateReport.finishedAt

theorem latestHistory_eq_byKey (projectId mrIid : ℕ) (db : Database) :
    latestHistory projectId mrIid db = db.history.byKey (projectId, mrIid) := by
  have hfilter : (db.history.rows.filter fun r ↦
      r.values.iid = mrIid && r.values.projectId = projectId) =
      (db.history.byKey (projectId, mrIid)).toList := by
    rw [← KeyedTable.filter_key]
    congr 1
    funext r
    simp [Bool.and_comm]
  rw [latestHistory, hfilter]
  cases db.history.byKey (projectId, mrIid) <;> rfl

theorem reportedEnd_of_row {projectId mrIid : ℕ} {db : Database} {row : MergeRequestRow}
    (h : db.row projectId mrIid = some row) : reportedEnd projectId mrIid db = row.finishedAt := by
  simp [reportedEnd, getMrState, h]

theorem reportedEnd_of_run {calls : List Call} (hcalls : Permitted calls .empty)
    {projectId mrIid : ℕ} (h : (run calls .empty).db.row projectId mrIid = none) :
    reportedEnd projectId mrIid (run calls .empty).db =
      ((run calls .empty).firstArchived (projectId, mrIid)).map HistoryParams.finishedAt := by
  rw [← firstArchived_run hcalls, reportedEnd, getMrState, h]
  simp only [latestHistory_eq_byKey]
  cases (run calls .empty).db.history.byKey (projectId, mrIid) <;> rfl

/-! ## What the handler does with an ended lifecycle -/

/-- No lifecycle of the merge request is under way. -/
def Closed (projectId mrIid : ℕ) (db : Database) : Prop :=
  ∀ row ∈ db.row projectId mrIid, row.status.active = false ∧ row.pendingCompletion = none

theorem closed_of_row {projectId mrIid : ℕ} {db : Database} (h : db.row projectId mrIid = none) :
    Closed projectId mrIid db := by
  intro row hrow
  rw [h] at hrow
  cases hrow

theorem selectQueueItem_of_closed {projectId mrIid : ℕ} {db : Database}
    (h : Closed projectId mrIid db) :
    (db.selectQueueItem projectId mrIid).any (fun item ↦ item.state.active) = false := by
  rw [Database.selectQueueItem, Option.any_map]
  cases hrow : db.row projectId mrIid with
  | none => rfl
  | some row => exact (h row hrow).1

/-- No row came to the table. -/
def NoNewRow (db db' : Database) : Prop :=
  ∀ r ∈ db'.mergeRequests.rows, db.mergeRequests.HasId r.id

namespace MRWebhookHandler

/-- The webhook asks for an enqueue. -/
def enqueues (settings : Settings) (event : MergeRequestEvent) : Bool :=
  match event.action with
  | .labeled => wasQueueLabelAdded settings event || wasHotfixLabelAdded settings event
  | .update => hasQueueTrigger settings event.labels
  | _ => false

/-- The queue classifies no labels of the project. -/
def unconfigured (settings : Settings) : Bool :=
  settings.qm.projectPolicies.any fun policies ↦ (policies settings.gitlabProjectId).isNone

section Refused

variable {settings : Settings} {event : MergeRequestEvent} {keep : Database → Prop} {s : Local}
  {db : Database}

theorem within_getQueueItem (hdb : keep db) (projectId mrIid : ℕ) :
    (Prog.getQueueItem projectId mrIid).Within settings keep s db fun item s' db' ↦
      item = db.selectQueueItem projectId mrIid ∧ s' = s ∧ db' = db := by
  refine Prog.Within.transact hdb fun now tokens a db' h ↦ ?_
  cases h
  exact ⟨hdb, rfl, rfl, rfl⟩

theorem admitActiveTrigger_of_inactive {item : QueueItem} (h : item.state.active = false) :
    admitActiveTrigger settings event item = pure () := by
  unfold admitActiveTrigger
  simp only [h, Bool.false_eq_true, if_false, ite_self]

/-- Where no lifecycle is under way, only a remembered event is dealt with at once. -/
theorem within_admitEvent (hclosed : Closed settings.gitlabProjectId event.iid db) (hdb : keep db) :
    (admitEvent settings event).Within settings keep s db fun out s' db' ↦
      out = .inl ((db.row settings.gitlabProjectId event.iid).any fun row ↦
        ignoredCompletionEvent settings event (rowToQueueItem row)) ∧ s' = s ∧ db' = db := by
  refine Prog.Within.withLock hdb ((within_getQueueItem hdb _ _).bind ?_)
  rintro item s' db' hdb ⟨rfl, rfl, rfl⟩
  rw [Database.selectQueueItem]
  cases hrow : db'.row settings.gitlabProjectId event.iid with
  | none => exact Prog.Within.ret hdb ⟨rfl, rfl, rfl⟩
  | some row =>
      obtain ⟨hinactive, hopen⟩ := hclosed row hrow
      simp only [Option.map_some, Option.any_some, rowToQueueItem_pendingCompletion, hopen]
      split_ifs with hignored
      · exact Prog.Within.ret hdb ⟨by rw [hignored], rfl, rfl⟩
      · rw [admitActiveTrigger_of_inactive (by exact hinactive)]
        refine Prog.Within.ret hdb ⟨?_, rfl, rfl⟩
        rw [Bool.not_eq_true] at hignored
        rw [hignored]

theorem within_resumeCompletion (hclosed : Closed settings.gitlabProjectId event.iid db)
    (hdb : keep db) :
    (resumeCompletion settings event).Within settings keep s db fun handled s' db' ↦
      handled = ((db.row settings.gitlabProjectId event.iid).any fun row ↦
        ignoredCompletionEvent settings event (rowToQueueItem row)) ∧ s' = s ∧ db' = db := by
  refine (within_admitEvent hclosed hdb).bind ?_
  rintro _ s' db' hdb ⟨rfl, rfl, rfl⟩
  exact Prog.Within.ret hdb ⟨rfl, rfl, rfl⟩

theorem within_staleEnqueue (hdb : keep db) :
    (staleEnqueue settings event).Within settings keep s db fun stale s' db' ↦
      stale = (reportedEnd settings.gitlabProjectId event.iid db).any event.before ∧ s' = s ∧
        db' = db := by
  unfold staleEnqueue
  cases hat : event.updatedAt with
  | none =>
      refine Prog.Within.ret hdb ⟨?_, rfl, rfl⟩
      cases reportedEnd settings.gitlabProjectId event.iid db <;>
        simp [MergeRequestEvent.before, hat]
  | some eventAt =>
      refine (Prog.Within.transact (Q := fun state s' db' ↦
        state = getMrState settings.gitlabProjectId event.iid db ∧ s' = s ∧ db' = db) hdb
        fun now tokens a db' h ↦ ?_).bind ?_
      · cases h
        exact ⟨hdb, rfl, rfl, rfl⟩
      · rintro state s' db' hdb ⟨rfl, rfl, rfl⟩
        exact Prog.Within.ret hdb ⟨rfl, rfl, rfl⟩

/-- An operation of GitLab or of the clients, whose failure is only logged. -/
theorem within_logged {op : Op} (hop : ∀ q, op ≠ .db q) (hdb : keep db) :
    Prog.Within settings keep
      (tryCatch (do
          let _ ← Prog.await op
          return ()) fun e ↦ if e.isException then pure () else throw e)
      s db fun _ _ _ ↦ True := by
  refine Prog.Within.handle ((Prog.Within.await (Q := fun _ _ _ ↦ True) hop hdb
    fun _ ↦ trivial).bind fun _ _ _ hdb _ ↦ Prog.Within.ret hdb trivial) fun e s' db' hdb ↦ ?_
  split_ifs
  · exact Prog.Within.ret hdb trivial
  · exact Prog.Within.throw hdb

theorem within_broadcastQueueUpdate (hdb : keep db) :
    (broadcastQueueUpdate settings).Within settings keep s db fun _ _ _ ↦ True := by
  unfold broadcastQueueUpdate broadcast
  refine Prog.Within.handle ?_ fun e s' db' hdb ↦ ?_
  · split_ifs
    · exact Prog.Within.await (fun q hq ↦ by cases hq) hdb fun _ ↦ trivial
    · exact Prog.Within.ret hdb trivial
  · split_ifs
    · exact Prog.Within.ret hdb trivial
    · exact Prog.Within.throw hdb

theorem noNewRow_completeMr {projectId mrIid : ℕ} {outcome : Outcome} {expected : Option ℕ}
    {now : ℤ} {db₀ db : Database} (h : NoNewRow db₀ db) :
    NoNewRow db₀ (QueueManager.completeMr projectId mrIid outcome expected now db).2 := by
  unfold QueueManager.completeMr
  simp only
  split
  · exact h
  · exact fun r hr ↦ h r (KeyedTable.mem_deleteWhere.mp hr).1

theorem within_completeDirectly {db₀ : Database} {item : QueueItem} {outcome : Outcome}
    (hdb : NoNewRow db₀ db) :
    (completeDirectly settings item event.iid outcome).Within settings (NoNewRow db₀) s db
      fun _ _ _ ↦ True := by
  refine (Prog.Within.transact (Q := fun _ _ _ ↦ True) hdb fun now tokens a db' h ↦ ?_).bind
    fun completed s' db' hdb _ ↦ ?_
  · obtain rfl := (congrArg Prod.snd (Except.ok.inj h)).symm
    exact ⟨noNewRow_completeMr hdb, trivial⟩
  · split_ifs
    · exact within_logged (fun q hq ↦ by cases hq) hdb
    · exact Prog.Within.ret hdb trivial

/-- The machine of a row takes over its state, without entering it. -/
theorem within_create {row : MergeRequestRow} {targetBranch : String} {mrIid : ℕ}
    (hrow : db.row settings.gitlabProjectId mrIid = some row) (hdb : keep db) :
    (MRStateMachine.create settings mrIid targetBranch).Within settings keep s db
      fun _ s' db' ↦ db' = db ∧ ∃ m, s'.machine = some m ∧ m.current = row.status := by
  refine (within_getQueueItem hdb _ _).bind ?_
  rintro _ s' db' hdb ⟨rfl, rfl, rfl⟩
  simp only [Database.selectQueueItem, hrow, Option.map_some]
  refine (Prog.Within.update (Q := fun _ s' db'' ↦ db'' = db' ∧ ∃ m, s'.machine = some m ∧
    m.current = row.status) hdb ⟨rfl, _, rfl, rfl⟩).bind fun _ s'' db'' hdb h ↦ ?_
  exact Prog.Within.update hdb h

theorem within_machine {m : Machine} (hm : s.machine = some m) (hdb : keep db) :
    Prog.machine.Within settings keep s db fun m' s' db' ↦ m' = m ∧ s' = s ∧ db' = db := by
  refine (Prog.Within.read (Q := fun s' s'' db' ↦ s' = s ∧ s'' = s ∧ db' = db) hdb
    ⟨rfl, rfl, rfl⟩).bind ?_
  rintro _ s' db' hdb ⟨rfl, rfl, rfl⟩
  simp only [hm]
  exact Prog.Within.ret hdb ⟨rfl, rfl, rfl⟩

theorem transition_markRemoved_of_inactive {status : Status} (h : status.active = false) :
    MRStateMachine.transition .markRemoved status = none := by
  cases status <;> first | rfl | cases h

/-- A state machine that has ended raises, and nothing is completed. -/
theorem within_triggerMarkRemoved {m : Machine} {reason : RemovalReason}
    (hm : s.machine = some m) (hended : m.current.active = false) (hdb : keep db) :
    (MRStateMachine.triggerMarkRemoved settings reason).Within settings keep s db
      fun _ _ _ ↦ False := by
  refine (within_machine hm hdb).bind ?_
  rintro m s' db' hdb ⟨rfl, rfl, rfl⟩
  refine (Prog.Within.update (Q := fun _ s'' _ ↦ ∃ m', s''.machine = some m' ∧
    m'.current.active = false) hdb ⟨_, rfl, by exact hended⟩).bind ?_
  rintro _ s'' db'' hdb ⟨m', hm', hended'⟩
  refine (within_machine hm' hdb).bind ?_
  rintro m' s₃ db₃ hdb ⟨rfl, rfl, rfl⟩
  simp only [transition_markRemoved_of_inactive hended']
  exact Prog.Within.throw hdb

/-- An ended row is at most archived. -/
theorem within_markRemoved {db₀ : Database} {row : MergeRequestRow} {item : QueueItem}
    {reason : RemovalReason} (hrow : db.row settings.gitlabProjectId event.iid = some row)
    (hended : row.status.active = false) (hdb : NoNewRow db₀ db) :
    (markRemoved settings event item reason).Within settings (NoNewRow db₀) s db
      fun _ _ _ ↦ True := by
  refine (within_create hrow hdb).bind ?_
  rintro _ s' db' hdb ⟨rfl, m, hm, hcurrent⟩
  refine Prog.Within.handle ?_ fun e s'' db'' hdb ↦ ?_
  · refine (within_triggerMarkRemoved hm (by rw [hcurrent]; exact hended) hdb).weaken ?_
    exact fun _ _ _ _ h ↦ h.elim
  · split_ifs
    · exact within_completeDirectly hdb
    · exact Prog.Within.throw hdb

theorem classifyLabels_of_unconfigured (h : unconfigured settings = true) (labels : List String)
    (isHotfix : Bool) :
    ∃ e, settings.qm.classifyLabels settings.gitlabProjectId labels isHotfix = .error e := by
  obtain ⟨policies, hpolicies, hnone⟩ := (Option.any_eq_true _ _).mp h
  rw [Option.isNone_iff_eq_none] at hnone
  unfold QueueManager.classifyLabels
  simp only [Option.mem_def.mp hpolicies, hnone]
  exact ⟨_, rfl⟩

theorem within_capturePositions (hdb : keep db) :
    (QueuePositionNotifier.capturePositionsIfEnabled settings).Within settings keep s db
      fun _ _ _ ↦ True := by
  have hread : ∀ {s : Local} {db : Database}, keep db →
      (Prog.db (.getActiveQueue settings.gitlabProjectId)).Within settings keep s db
        fun _ _ _ ↦ True := by
    intro s db hdb
    refine Prog.Within.transact hdb fun now tokens a db' h ↦ ?_
    cases h
    exact ⟨hdb, trivial⟩
  unfold QueuePositionNotifier.capturePositionsIfEnabled
  split_ifs
  · refine ((hread hdb).bind fun _ _ _ hdb _ ↦ Prog.Within.ret (Q := fun _ _ _ ↦ True) hdb
      trivial).bind fun _ _ _ hdb _ ↦ ?_
    exact ((hread hdb).bind fun _ _ _ hdb _ ↦ Prog.Within.ret (Q := fun _ _ _ ↦ True) hdb
      trivial).bind fun _ _ _ hdb _ ↦ Prog.Within.ret hdb trivial
  · exact Prog.Within.ret hdb trivial

theorem within_addFetched {announce : Prog Unit} (hdb : keep db)
    (h : unconfigured settings = true ∨
      (reportedEnd settings.gitlabProjectId event.iid db).any event.before = true) :
    (addFetched settings event announce).Within settings keep s db fun _ _ _ ↦ True := by
  refine (within_staleEnqueue hdb).bind ?_
  rintro stale s' db' hdb ⟨hstale, rfl, rfl⟩
  split_ifs with hlate
  · exact Prog.Within.ret hdb trivial
  · have hconfig := h.resolve_right (by rwa [← hstale])
    refine (within_capturePositions hdb).bind fun out s'' db'' hdb _ ↦ ?_
    refine (Prog.Within.await (Q := fun _ _ _ ↦ True) (fun q hq ↦ by cases hq) hdb
      fun _ ↦ trivial).bind fun mr s₃ db₃ hdb _ ↦ ?_
    simp only
    split_ifs
    · exact Prog.Within.ret hdb trivial
    · refine (Prog.Within.transact (Q := fun _ _ _ ↦ False) hdb
        fun now tokens a db' hcommit ↦ ?_).bind fun _ _ _ _ h ↦ h.elim
      obtain ⟨e, herror⟩ := classifyLabels_of_unconfigured hconfig mr.labels
        (mr.labels.contains settings.hotfixLabel)
      simp only [QueueOp.exec, QueueManager.addToQueue, herror] at hcommit
      cases hcommit

/-- Whatever the handler of a labeled or update event may do instead of an enqueue. -/
theorem within_dispatch {db₀ : Database}
    (haction : event.action = .labeled ∨ event.action = .update)
    (hclosed : Closed settings.gitlabProjectId event.iid db) (hdb : NoNewRow db₀ db)
    (h : enqueues settings event = false ∨ unconfigured settings = true ∨
      (reportedEnd settings.gitlabProjectId event.iid db).any event.before = true) :
    (dispatch settings event).Within settings (NoNewRow db₀) s db fun _ _ _ ↦ True := by
  have hinactive := selectQueueItem_of_closed hclosed
  rcases haction with haction | haction
  · simp only [dispatch, haction, handleLabeled]
    split_ifs with hadded
    · unfold refreshAutomated
      split
      · exact Prog.Within.throw hdb
      · exact Prog.Within.ret hdb trivial
      · refine (within_getQueueItem hdb _ _).bind ?_
        rintro _ s' db' hdb ⟨rfl, rfl, rfl⟩
        simp only [hinactive, Bool.false_eq_true, if_false]
        exact Prog.Within.ret hdb trivial
    · refine (within_getQueueItem hdb _ _).bind ?_
      rintro _ s' db' hdb ⟨rfl, rfl, rfl⟩
      simp only [hinactive, Bool.false_eq_true, if_false]
      refine within_addFetched hdb (h.resolve_left fun hnone ↦ hadded ?_)
      simpa [enqueues, haction] using hnone
  · simp only [dispatch, haction, handleUpdate]
    split_ifs with hlost
    · obtain ⟨htrigger, hremoved⟩ := hlost
      have hremove : shouldRemove settings event = true := by
        obtain ⟨hqueue, hhotfix⟩ := Bool.or_eq_false_iff.mp htrigger
        simpa only [shouldRemove, hqueue, hhotfix, Bool.not_false, Bool.and_true] using hremoved
      refine (within_getQueueItem hdb _ _).bind ?_
      rintro _ s' db' hdb ⟨rfl, rfl, rfl⟩
      simp only [hremove, if_true, Database.selectQueueItem]
      cases hrow : db'.row settings.gitlabProjectId event.iid with
      | none => exact Prog.Within.ret hdb trivial
      | some row =>
          refine (within_markRemoved hrow (hclosed row hrow).1 hdb).bind fun _ _ _ hdb _ ↦ ?_
          exact within_broadcastQueueUpdate hdb
    · refine (within_getQueueItem hdb _ _).bind ?_
      rintro _ s' db' hdb ⟨rfl, rfl, rfl⟩
      simp only [hinactive, Bool.false_eq_true, if_false]
      split_ifs with htrigger
      · refine within_addFetched hdb (h.resolve_left fun hfalse ↦ ?_)
        simp only [enqueues, haction, htrigger] at hfalse
        cases hfalse
      · exact Prog.Within.ret hdb trivial

theorem handle_of_action (haction : event.action = .labeled ∨ event.action = .update) :
    handle settings event = (do
      let handled ← resumeCompletion settings event
      if handled then pure ()
      else dispatch settings event) := by
  rcases haction with haction | haction <;> simp only [handle, haction]

end Refused

/-! ### A late enqueue that nothing refuses -/

section Reached

variable {settings : Settings} {event : MergeRequestEvent} {s : Local} {log : List Op} {w : World}

theorem finishes_resumeCompletion (hlocks : w.locks = [])
    (hclosed : Closed settings.gitlabProjectId event.iid w.db)
    (hunknown : (w.db.row settings.gitlabProjectId event.iid).any (fun row ↦
      ignoredCompletionEvent settings event (rowToQueueItem row)) = false) :
    Finishes (alone settings) (resumeCompletion settings event) s log w
      fun result s' _ w' ↦ result = .ok false ∧ s' = s ∧ w'.db = w.db := by
  refine Finishes.bind (Finishes.bind (finishes_acquire (held_eq_false (by simp [hlocks])) ?_))
  refine Finishes.ensuring (Finishes.bind (finishes_getQueueItem ?_))
  simp only [Database.selectQueueItem]
  cases hrow : w.db.row settings.gitlabProjectId event.iid with
  | none => exact Finishes.ret (finishes_release (Finishes.ret ⟨rfl, rfl, rfl⟩))
  | some row =>
      obtain ⟨hinactive, hopen⟩ := hclosed row hrow
      rw [hrow, Option.any_some] at hunknown
      simp only [Option.map_some, hunknown, Bool.false_eq_true, if_false,
        rowToQueueItem_pendingCompletion, hopen]
      rw [admitActiveTrigger_of_inactive (by exact hinactive)]
      exact Finishes.bind (Finishes.ret (Finishes.ret
        (finishes_release (Finishes.ret ⟨rfl, rfl, rfl⟩))))

theorem finishes_staleEnqueue
    (hlate : (reportedEnd settings.gitlabProjectId event.iid w.db).any event.before = false) :
    Finishes (alone settings) (staleEnqueue settings event) s log w
      fun result _ _ w' ↦ result = .ok false ∧ w'.db = w.db := by
  unfold staleEnqueue
  cases event.updatedAt with
  | none => exact Finishes.ret ⟨rfl, rfl⟩
  | some eventAt =>
      refine Finishes.bind (finishes_db fun now tokens ↦ Finishes.ret ⟨?_, rfl⟩)
      rw [← hlate]
      rfl

theorem addToQueue_of_closed {mr : MergeRequest} {isHotfix : Bool} {now : ℤ} {db : Database}
    (hclosed : Closed settings.gitlabProjectId mr.iid db)
    (hconfig : unconfigured settings = false) :
    ∃ item db', settings.qm.addToQueue settings.gitlabProjectId mr isHotfix now db =
        .ok (item, db') ∧
      ∃ r ∈ db'.mergeRequests.rows, r.status.active = true ∧ ¬ db.mergeRequests.HasId r.id := by
  obtain ⟨classes, hclasses⟩ : ∃ classes, settings.qm.classifyLabels settings.gitlabProjectId
      mr.labels isHotfix = .ok classes := by
    unfold QueueManager.classifyLabels
    cases hpolicies : settings.qm.projectPolicies with
    | none => exact ⟨_, rfl⟩
    | some policies =>
        rw [unconfigured, hpolicies, Option.any_some, Option.isNone_eq_false_iff,
          Option.isSome_iff_exists] at hconfig
        obtain ⟨policy, hpolicy⟩ := hconfig
        simp only [hpolicy]
        exact ⟨_, rfl⟩
  have hinserted : ∀ (table : KeyedTable MergeRequestRow) (params : RequeueParams),
      table.nextId = db.mergeRequests.nextId →
      table.byKey (params.projectId, params.iid) = none →
      ∃ r ∈ (insertMr { db with mergeRequests := table } params classes.1 classes.2
        now).mergeRequests.rows, r.status.active = true ∧ ¬ db.mergeRequests.HasId r.id := by
    intro table params hnext hfree
    have hrows : (table.insertOrIgnore
        (insertedRow params classes.1 classes.2 now)).rows = table.rows ++
          [insertedRow params classes.1 classes.2 now table.nextId] :=
      KeyedTable.insertOrIgnore_rows_of_free hfree
    refine ⟨insertedRow params classes.1 classes.2 now table.nextId, ?_, rfl, fun hid ↦ ?_⟩
    · exact hrows ▸ List.mem_append_right _ (List.mem_singleton_self _)
    · have hlt := hid.lt_nextId
      rw [← hnext] at hlt
      exact absurd hlt (lt_irrefl _)
  simp only [QueueManager.addToQueue, hclasses, bind, Except.bind]
  refine ⟨_, _, rfl, ?_⟩
  cases hrow : db.row settings.gitlabProjectId mr.iid with
  | none =>
      simp only [Option.any_none, Bool.false_eq_true, if_false, Option.isNone_none, Bool.or_true,
        if_true]
      exact hinserted db.mergeRequests _ rfl hrow
  | some row =>
      obtain ⟨hinactive, hopen⟩ := hclosed row hrow
      simp only [Option.any_some, Status.terminal_eq_not_active, hinactive, hopen,
        Option.isNone_none, Bool.not_false, Bool.and_true, Bool.true_or, if_true]
      refine hinserted _ _ (KeyedTable.deleteWhere_nextId _ _) ?_
      rw [KeyedTable.byKey_eq_none_iff]
      intro r hr hkey
      obtain ⟨-, hother⟩ := KeyedTable.mem_deleteWhere.mp hr
      simp only [key_mergeRequestRow, Prod.mk.injEq] at hkey
      simp [hkey.1, hkey.2] at hother

/-- The merge request as a user asked for it to be queued. -/
def requested (settings : Settings) (iid : ℕ) : MergeRequest where
  iid
  title := ""
  state := .opened
  labels := [settings.queueLabel]
  sha := ""
  sourceBranch := ""
  targetBranch := settings.targetBranch
  mergeStatus := ""
  author := { id := 0, name := "", username := "" }

theorem reaches_addFetched {announce : Prog Unit}
    (hclosed : Closed settings.gitlabProjectId event.iid w.db)
    (hconfig : unconfigured settings = false)
    (hlate : (reportedEnd settings.gitlabProjectId event.iid w.db).any event.before = false) :
    (addFetched settings event announce).Reaches
      (answering settings (answersFor (requested settings event.iid))) s w fun w' ↦
        ∃ r ∈ w'.db.mergeRequests.rows, r.status.active = true ∧
          ¬ w.db.mergeRequests.HasId r.id := by
  refine reaches_bind ((finishes_staleEnqueue hlate).mono ?_)
  rintro _ s' log' w' ⟨rfl, hdb⟩
  refine ⟨false, rfl, ?_⟩
  simp only [Bool.false_eq_true, if_false]
  refine reaches_bind (finishes_capture (K := fun _ ↦ True) (fun _ _ _ _ ↦ trivial)
    trivial fun out _ _ ↦ ⟨out, rfl, ?_⟩)
  refine reaches_gitlab ?_
  have htrigger : hasQueueTrigger settings (requested settings event.iid).labels = true := by
    simp [hasQueueTrigger, requested]
  have hopened : (requested settings event.iid).state = .opened := rfl
  simp only [answersFor, htrigger, hopened, ne_eq, not_true_eq_false, Bool.true_eq_false, or_self,
    if_false]
  refine reaches_db ⟨0, ?_⟩
  rw [← hdb] at hclosed ⊢
  exact addToQueue_of_closed hclosed hconfig

theorem reaches_handle (haction : event.action = .labeled ∨ event.action = .update)
    (hlocks : w.locks = []) (hclosed : Closed settings.gitlabProjectId event.iid w.db)
    (henqueues : enqueues settings event = true) (hconfig : unconfigured settings = false)
    (hunknown : (w.db.row settings.gitlabProjectId event.iid).any (fun row ↦
      ignoredCompletionEvent settings event (rowToQueueItem row)) = false)
    (hlate : (reportedEnd settings.gitlabProjectId event.iid w.db).any event.before = false) :
    (handle settings event).Reaches
      (answering settings (answersFor (requested settings event.iid))) s w fun w' ↦
        ∃ r ∈ w'.db.mergeRequests.rows, r.status.active = true ∧
          ¬ w.db.mergeRequests.HasId r.id := by
  rw [handle_of_action haction]
  refine reaches_bind ((finishes_resumeCompletion hlocks hclosed hunknown).mono ?_)
  rintro _ s' log' w' ⟨rfl, rfl, hdb⟩
  refine ⟨false, rfl, ?_⟩
  simp only [Bool.false_eq_true, if_false]
  have hinactive : (w'.db.selectQueueItem settings.gitlabProjectId event.iid).any
      (fun item ↦ item.state.active) = false := by
    rw [hdb]
    exact selectQueueItem_of_closed hclosed
  rw [← hdb] at hclosed hlate ⊢
  rcases haction with haction | haction
  · have hadded : ¬ (!wasQueueLabelAdded settings event && !wasHotfixLabelAdded settings event) =
        true := by
      simp only [enqueues, haction, Bool.or_eq_true] at henqueues
      rcases henqueues with h | h <;> simp [h]
    simp only [dispatch, haction, handleLabeled, hadded]
    refine reaches_bind (finishes_getQueueItem ⟨_, rfl, ?_⟩)
    simp only [hinactive, Bool.false_eq_true, if_false]
    exact reaches_addFetched hclosed hconfig hlate
  · have htrigger : hasQueueTrigger settings event.labels = true := by
      simpa only [enqueues, haction] using henqueues
    simp only [dispatch, haction, handleUpdate, htrigger, Bool.true_eq_false, false_and, if_false]
    refine reaches_bind (finishes_getQueueItem ⟨_, rfl, ?_⟩)
    simp only [hinactive, Bool.false_eq_true, if_false, htrigger, if_true]
    exact reaches_addFetched hclosed hconfig hlate

end Reached

end MRWebhookHandler

/-! ## Every history of lifecycles -/

section Histories

variable (settings : Settings) (calls : List Call) (event : MergeRequestEvent)

/-- The handler may leave an active row behind that was not there before. -/
def CreatesRow : Prop :=
  (MRWebhookHandler.handle settings event).Reaches (undisturbed settings) {}
    { db := (run calls .empty).db } fun w ↦
      ∃ r ∈ w.db.mergeRequests.rows, r.status.active = true ∧
        ¬ (run calls .empty).db.mergeRequests.HasId r.id

/-- The latest lifecycle of the merge request has ended, after the event. -/
structure Late : Prop where
  ended : ∃ t, latestEnd calls (settings.gitlabProjectId, event.iid) = some t ∧
    event.before t = true
  closed : Closed settings.gitlabProjectId event.iid (run calls .empty).db

/-- The event asks for no enqueue, no policy classifies it, the row that is left
remembers it, or it is compared with an end that came later: the one of the row that is
left, and without a row the one of the first lifecycle that was archived. -/
def Refuses : Prop :=
  MRWebhookHandler.enqueues settings event = false ∨
  MRWebhookHandler.unconfigured settings = true ∨
  match (run calls .empty).db.row settings.gitlabProjectId event.iid with
  | some row =>
      MRWebhookHandler.ignoredCompletionEvent settings event (rowToQueueItem row) = true ∨
        row.finishedAt.any event.before = true
  | none =>
      ((run calls .empty).firstArchived (settings.gitlabProjectId, event.iid)).any
        (fun values ↦ event.before values.finishedAt) = true

variable {settings calls event}

theorem refuses_iff (hcalls : Permitted calls .empty) :
    Refuses settings calls event ↔
      MRWebhookHandler.enqueues settings event = false ∨
      MRWebhookHandler.unconfigured settings = true ∨
      ((run calls .empty).db.row settings.gitlabProjectId event.iid).any (fun row ↦
        MRWebhookHandler.ignoredCompletionEvent settings event (rowToQueueItem row)) = true ∨
      (reportedEnd settings.gitlabProjectId event.iid (run calls .empty).db).any event.before =
        true := by
  rw [Refuses]
  cases hrow : (run calls .empty).db.row settings.gitlabProjectId event.iid with
  | none =>
      rw [reportedEnd_of_run hcalls hrow, Option.any_map]
      simp
  | some row => simp [reportedEnd_of_row hrow]

theorem createsRow_iff (hcalls : Permitted calls .empty)
    (haction : event.action = .labeled ∨ event.action = .update)
    (hclosed : Closed settings.gitlabProjectId event.iid (run calls .empty).db) :
    ¬ CreatesRow settings calls event ↔ Refuses settings calls event := by
  rw [refuses_iff hcalls]
  constructor
  · intro hcreates
    by_contra hrefused
    simp only [not_or, Bool.not_eq_false, Bool.not_eq_true] at hrefused
    obtain ⟨henqueues, hconfig, hunknown, hlate⟩ := hrefused
    exact hcreates (reaches_of_answering
      (MRWebhookHandler.reaches_handle haction rfl hclosed henqueues hconfig hunknown hlate))
  · intro hrefused
    have hstart : NoNewRow (run calls .empty).db (run calls .empty).db :=
      fun r hr ↦ KeyedTable.hasId_of_mem hr
    have hwithin : (MRWebhookHandler.handle settings event).Within settings
        (NoNewRow (run calls .empty).db) {} (run calls .empty).db fun _ _ _ ↦ True := by
      rw [MRWebhookHandler.handle_of_action haction]
      refine (MRWebhookHandler.within_resumeCompletion hclosed hstart).bind ?_
      rintro handled s db hdb ⟨hhandled, rfl, rfl⟩
      split_ifs with hknown
      · exact Prog.Within.ret hdb trivial
      · refine MRWebhookHandler.within_dispatch haction hclosed hdb ?_
        rcases hrefused with h | h | h | h
        · exact Or.inl h
        · exact Or.inr (Or.inl h)
        · exact absurd (hhandled.trans h) hknown
        · exact Or.inr (Or.inr h)
    refine Interleave.Task.Stays.not_reaches (hwithin _ rfl) ?_
    rintro w hkeep ⟨r, hr, -, hnew⟩
    exact hnew (hkeep r hr)

end Histories

/-- In every history of lifecycles, a late enqueue creates no row exactly where the end it
is compared with is not lost. -/
theorem late_enqueue_creates_nothing_iff (settings : Settings) {calls : List Call}
    (hcalls : Permitted calls .empty) {event : MergeRequestEvent}
    (haction : event.action = .labeled ∨ event.action = .update) :
    (Late settings calls event → ¬ CreatesRow settings calls event) ↔
      (Late settings calls event → Refuses settings calls event) :=
  forall_congr' fun hlate ↦ createsRow_iff hcalls haction hlate.closed

/-! ### A merge request that fails twice -/

def lateSettings : Settings where
  gitlabProjectId := 1
  rounds := 0

def lateEvent (updatedAt : ℤ) : MergeRequestEvent where
  iid := 7
  title := "Fix the build"
  state := .opened
  action := .labeled
  targetBranch := "master"
  userId := 3
  labels := ["merge_queue"]
  labelChanges := some { current := ["merge_queue"] }
  updatedAt := some updatedAt
  messageId := some "webhook"

theorem late_enqueue_after_one_lifecycle :
    ¬ CreatesRow lateSettings (attemptCalls .merged 0) (lateEvent 0) :=
  (late_enqueue_creates_nothing_iff lateSettings (by decide) (Or.inl rfl)).mpr
    (fun _ ↦ (refuses_iff (by decide)).mpr (Or.inr (Or.inr (Or.inr (by decide +kernel)))))
    ⟨⟨1000000, by decide +kernel, by decide⟩, closed_of_row (by decide +kernel)⟩

/-- The history kept the end of the first attempt, and the event came after it. -/
theorem late_enqueue_after_two_lifecycles :
    Late lateSettings (attemptCalls .failed 0 ++ attemptCalls .failed 2000000)
        (lateEvent 2500000) ∧
      CreatesRow lateSettings (attemptCalls .failed 0 ++ attemptCalls .failed 2000000)
        (lateEvent 2500000) := by
  have hclosed : Closed 1 7 (run (attemptCalls .failed 0 ++ attemptCalls .failed 2000000)
      .empty).db := closed_of_row (by decide +kernel)
  refine ⟨⟨⟨3000000, by decide +kernel, by decide⟩, hclosed⟩, ?_⟩
  exact reaches_of_answering (MRWebhookHandler.reaches_handle (Or.inl rfl) rfl hclosed rfl rfl
    (by decide +kernel) (by decide +kernel))

end MergeQueue
