import MergeQueue.AdmissionReceipts
import MergeQueue.MergeTruth
import MergeQueue.PermanentFailure

/-!
# A recovery that nobody disturbs

The recovery takes up every pending completion where it was left.  Where no request fails it
finishes them all: every comment is sent, every row is archived and every lock is given back.
Each completion is followed through its four parts with the record that its row carries, and the
rows of the other completions wait unchanged meanwhile.
-/

namespace MergeQueue

open Interleave (Program)
open Interleave.Program (Finishes)
open QueueManager QueueOp

namespace Recovery

/-! ## The row that is being finished -/

/-- The row of `item` has the saved request `requeue` and carries the record `payload`. -/
def InRow (settings : Settings) (item : QueueItem) (requeue : Option Requeue)
    (payload : CompletionPayload) (db : Database) : Prop :=
  ∃ r ∈ db.mergeRequests.rows, r.id = item.queueId ∧ r.projectId = settings.gitlabProjectId ∧
    r.iid = item.mrIid ∧ r.pendingCompletion = some payload ∧ r.requeueRequest = requeue

/-- The comment was sent, or it can be. -/
def Tellable (payload : CompletionPayload) : Prop :=
  payload.commentSent = true ∨ ∃ comment, Comment.render
    (.outcome payload.request.notificationStatus) payload.request.context = .ok comment

/-- A saved request says what to enqueue, with labels that have a priority.  One that was only
ever cancelled does not. -/
def Admissible (settings : Settings) (requeue : Option Requeue) : Prop :=
  ∀ request, requeue = some request → ∃ admission classes, request.admission = some admission ∧
    settings.qm.classifyLabels settings.gitlabProjectId admission.params.labels
      admission.params.isHotfix = .ok classes

section Steps

variable {settings : Settings} {s : Local} {log : List Op} {w : World} {item : QueueItem}
  {requeue : Option Requeue} {payload frozen : CompletionPayload}

theorem InRow.save (h : InRow settings item requeue payload w.db) (payload' : CompletionPayload) :
    InRow settings item requeue payload'
      (saveCompletionProgress settings.gitlabProjectId item.queueId payload' w.db) := by
  obtain ⟨r, hr, hid, hproject, hiid, hpending, hrequeue⟩ := h
  refine ⟨{ r with pendingCompletion := some payload' }, ?_, hid, hproject, hiid, rfl, hrequeue⟩
  exact List.mem_map.mpr ⟨r, hr, if_pos (by simp [hproject, hid, hpending])⟩

theorem InRow.selectQueueItem (h : InRow settings item requeue payload w.db) :
    ∃ current, w.db.selectQueueItem settings.gitlabProjectId item.mrIid = some current ∧
      current.queueId = item.queueId ∧ current.mrIid = item.mrIid ∧
      current.requeueRequest = requeue ∧ current.pendingCompletion = some payload := by
  obtain ⟨r, hr, hid, hproject, hiid, hpending, hrequeue⟩ := h
  have hrow : w.db.row settings.gitlabProjectId item.mrIid = some r :=
    KeyedTable.byKey_eq_some_iff.mpr ⟨hr, by simp [hproject, hiid]⟩
  refine ⟨rowToQueueItem r, ?_, hid, hiid, hrequeue, hpending⟩
  rw [Database.selectQueueItem, hrow, Option.map_some]

/-- Progress is saved in the row. -/
theorem finishes_saveProgress {payload' : CompletionPayload}
    {post : Except PyError Unit → Local → List Op → World → Prop}
    (h : InRow settings item requeue payload w.db)
    (hpost : ∀ log' w', w'.locks = w.locks → InRow settings item requeue payload' w'.db →
      post (.ok ()) s log' w') :
    Finishes (alone settings) (QueueCompletion.saveProgress settings item payload') s log w post :=
  finishes_db fun _ _ ↦ hpost _ _ rfl (h.save payload')

/-- The comment is sent once, and then recorded as sent. -/
theorem finishes_deliverComment
    {post : Except PyError CompletionPayload → Local → List Op → World → Prop}
    (h : InRow settings item requeue payload w.db) (hfree : NotificationsFree w.locks)
    (htell : Tellable payload)
    (hpost : ∀ payload' log' w', w'.locks = w.locks →
      InRow settings item requeue payload' w'.db → payload'.continues payload = true →
      post (.ok payload') s log' w') :
    Finishes (alone settings) (QueueCompletion.deliverComment settings item payload) s log w
      post := by
  unfold QueueCompletion.deliverComment
  split_ifs with hsent
  · exact Finishes.ret (hpost _ _ _ rfl h payload.continues_self)
  · obtain ⟨comment, hrender⟩ := htell.resolve_left hsent
    have hlocks : ∀ entry ∈ w.locks,
        entry.1 ≠ .notification settings.gitlabProjectId item.mrIid :=
      fun entry hentry ↦ hfree entry hentry _ _
    simp only [MRNotifier.notify, MRNotifier.sendNotification, hrender]
    refine Finishes.bind (Finishes.bind (finishes_acquire (held_eq_false hlocks) ?_))
    refine Finishes.ensuring (finishes_gitlab fun _ ↦ finishes_release ?_)
    refine Finishes.bind (finishes_saveProgress h fun log' w' hw' h' ↦ Finishes.ret ?_)
    exact hpost _ _ w' (hw'.trans (filter_acquired hlocks)) h' payload.continues_self

/-- The operation on the labels is the one to repeat, or a new one that is recorded first. -/
theorem finishes_labelOperation {action : LabelAction} {triggers : List String}
    {post : Except PyError (ℕ × LabelOperation × CompletionPayload) → Local → List Op → World →
      Prop}
    (h : InRow settings item requeue payload w.db) (hfrozen : payload.continues frozen = true)
    (hpost : ∀ out log' w', w'.locks = w.locks →
      (∃ saved, InRow settings item requeue saved w'.db) → out.2.2.continues frozen = true →
      post (.ok out) s log' w') :
    Finishes (alone settings) (QueueCompletion.labelOperation settings item payload action triggers)
      s log w post := by
  unfold QueueCompletion.labelOperation
  split
  · exact Finishes.ret (hpost _ _ _ rfl ⟨_, h⟩ hfrozen)
  · refine Finishes.bind (Finishes.bind (finishes_gitlab fun user ↦ Finishes.ret ?_))
    refine Finishes.bind (finishes_uuid fun uuid ↦ ?_)
    refine Finishes.bind (finishes_saveProgress h fun log' w' hw' h' ↦ Finishes.ret ?_)
    exact hpost _ _ w' hw' ⟨_, h'⟩ hfrozen

theorem finishes_mutateLabels {action : LabelAction} {triggers : List String}
    {post : Except PyError (Option ℤ × CompletionPayload) → Local → List Op → World → Prop}
    (h : InRow settings item requeue payload w.db) (hfrozen : payload.continues frozen = true)
    (hpost : ∀ out log' w', w'.locks = w.locks →
      (∃ saved, InRow settings item requeue saved w'.db) → out.2.continues frozen = true →
      post (.ok out) s log' w') :
    Finishes (alone settings) (QueueCompletion.mutateLabels settings item payload action triggers)
      s log w post := by
  refine Finishes.bind (finishes_labelOperation h hfrozen fun out log₁ w₁ hw₁ h₁ hfrozen₁ ↦ ?_)
  obtain ⟨index, operation, payload₁⟩ := out
  cases action with
  | remove =>
      refine Finishes.bind (Finishes.handle (Finishes.bind ?_))
      exact finishes_gitlab fun mr ↦ Finishes.ret (Finishes.ret (hpost _ _ _ hw₁ h₁ hfrozen₁))
  | restore =>
      refine Finishes.bind (Finishes.bind ?_)
      exact finishes_gitlab fun mr ↦ Finishes.ret (Finishes.ret (hpost _ _ _ hw₁ h₁ hfrozen₁))

/-- The labels are changed, and the row then carries what was done. -/
theorem finishes_mutated {action : LabelAction} {triggers : List String}
    {r : CompletionPayload → CompletionPayload}
    {post : Except PyError CompletionPayload → Local → List Op → World → Prop}
    (h : InRow settings item requeue payload w.db) (hfrozen : payload.continues frozen = true)
    (hr : ∀ payload', payload'.continues frozen = true → (r payload').continues frozen = true)
    (hpost : ∀ payload' log' w', w'.locks = w.locks →
      InRow settings item requeue payload' w'.db → payload'.continues frozen = true →
      post (.ok payload') s log' w') :
    Finishes (alone settings)
      (do
        let (eventAt, payload) ←
          QueueCompletion.mutateLabels settings item payload action triggers
        QueueCompletion.recordLabelEvent settings item (r payload) eventAt) s log w post := by
  refine Finishes.bind (finishes_mutateLabels h hfrozen fun out log₁ w₁ hw₁ h₁ hfrozen₁ ↦ ?_)
  obtain ⟨saved, h₁⟩ := h₁
  refine Finishes.bind (finishes_saveProgress h₁ fun log₂ w₂ hw₂ h₂ ↦ Finishes.ret ?_)
  exact hpost _ _ w₂ (hw₂.trans hw₁) h₂ (hr _ hfrozen₁)

theorem finishes_cleanup
    {post : Except PyError CompletionPayload → Local → List Op → World → Prop}
    (h : InRow settings item requeue payload w.db) (hfrozen : payload.continues frozen = true)
    (hpost : ∀ payload' log' w', w'.locks = w.locks →
      InRow settings item requeue payload' w'.db → payload'.continues frozen = true →
      post (.ok payload') s log' w') :
    Finishes (alone settings) (QueueCompletion.cleanup settings item payload) s log w post := by
  unfold QueueCompletion.cleanup
  split_ifs
  · exact finishes_mutated (r := fun payload ↦ { payload with labelsRemoved := true }) h hfrozen
      (fun _ h ↦ h) hpost
  · exact Finishes.ret (hpost _ _ _ rfl h hfrozen)

/-- Where the saved request is not cancelled, its labels are restored, if it says which. -/
theorem finishes_settleRequeue
    {post : Except PyError CompletionPayload → Local → List Op → World → Prop}
    (h : InRow settings item requeue payload w.db) (hfrozen : payload.continues frozen = true)
    (hbare : ¬ Admissible settings requeue → post (.error (.keyError "triggers")) s log w)
    (hpost : ∀ payload' log' w', w'.locks = w.locks →
      InRow settings item requeue payload' w'.db → payload'.continues frozen = true →
      post (.ok payload') s log' w') :
    Finishes (alone settings) (QueueCompletion.settleRequeue settings item payload requeue) s log w
      post := by
  unfold QueueCompletion.settleRequeue
  cases requeue with
  | none => exact Finishes.ret (hpost _ _ _ rfl h hfrozen)
  | some request =>
      simp only
      split_ifs
      · exact finishes_mutated (r := id) h hfrozen (fun _ h ↦ h) hpost
      · cases hadmission : request.admission with
        | none =>
            refine Finishes.throw (hbare fun hadmissible ↦ ?_)
            obtain ⟨admission, classes, hsome, -⟩ := hadmissible request rfl
            cases hadmission.symm.trans hsome
        | some admission => exact finishes_mutated (r := id) h hfrozen (fun _ h ↦ h) hpost

end Steps

/-! ## The rows of other completions -/

/-- Beside the row `own`, the rows that wait for their completion are the same with the same
records.  No saved request is changed, and nothing is dropped from the history. -/
structure Frame (own : ℕ) (db db' : Database) : Prop where
  below : db.mergeRequests.nextId ≤ db'.mergeRequests.nextId
  gone : ∀ id, ¬ db.mergeRequests.HasId id → id < db.mergeRequests.nextId →
    ¬ db'.mergeRequests.HasId id
  source : ∀ r' ∈ db'.mergeRequests.rows, r'.pendingCompletion.isSome = true →
    ∃ r ∈ db.mergeRequests.rows, r.id = r'.id ∧ r.projectId = r'.projectId ∧ r.iid = r'.iid ∧
      r.pendingCompletion.isSome = true ∧ r.requeueRequest = r'.requeueRequest
  kept : ∀ r ∈ db.mergeRequests.rows, r.pendingCompletion.isSome = true → r.id ≠ own →
    ∃ r' ∈ db'.mergeRequests.rows, r'.id = r.id ∧ r'.projectId = r.projectId ∧ r'.iid = r.iid ∧
      r'.pendingCompletion = r.pendingCompletion ∧ r'.requeueRequest = r.requeueRequest
  history : db.history.rows ⊆ db'.history.rows

theorem Frame.refl (own : ℕ) (db : Database) : Frame own db db where
  below := le_rfl
  gone _ h _ := h
  source r hr hsome := ⟨r, hr, rfl, rfl, rfl, hsome, rfl⟩
  kept r hr _ _ := ⟨r, hr, rfl, rfl, rfl, rfl, rfl⟩
  history := List.Subset.refl _

theorem Frame.trans {own : ℕ} {db₀ db₁ db₂ : Database} (h : Frame own db₀ db₁)
    (h' : Frame own db₁ db₂) : Frame own db₀ db₂ where
  below := h.below.trans h'.below
  gone id hgone hid := h'.gone id (h.gone id hgone hid) (hid.trans_le h.below)
  source r hr hsome := by
    obtain ⟨r₁, hr₁, hid₁, hproject₁, hiid₁, hsome₁, hrequeue₁⟩ := h'.source r hr hsome
    obtain ⟨r₀, hr₀, hid₀, hproject₀, hiid₀, hsome₀, hrequeue₀⟩ := h.source r₁ hr₁ hsome₁
    exact ⟨r₀, hr₀, hid₀.trans hid₁, hproject₀.trans hproject₁, hiid₀.trans hiid₁, hsome₀,
      hrequeue₀.trans hrequeue₁⟩
  kept r hr hsome hne := by
    obtain ⟨r₁, hr₁, hid₁, hproject₁, hiid₁, hpending₁, hrequeue₁⟩ := h.kept r hr hsome hne
    obtain ⟨r₂, hr₂, hid₂, hproject₂, hiid₂, hpending₂, hrequeue₂⟩ :=
      h'.kept r₁ hr₁ (hpending₁.symm ▸ hsome) (hid₁.symm ▸ hne)
    exact ⟨r₂, hr₂, hid₂.trans hid₁, hproject₂.trans hproject₁, hiid₂.trans hiid₁,
      hpending₂.trans hpending₁, hrequeue₂.trans hrequeue₁⟩
  history _ hr := h'.history (h.history hr)

/-- What a completion of `own` asks for. -/
def Asked (own : ℕ) (op : Op) : Prop :=
  op.completes own ∨ ∃ mrIid comment, op = .gitlab (.addOrUpdatePinnedComment mrIid comment)

theorem asked_of_finishing {settings : Settings} {item : QueueItem} {frozen : CompletionPayload}
    {op : Op} (h : op.Finishing settings item frozen) : Asked item.queueId op := by
  cases h with
  | plain hplain => exact Or.inl (Op.completes_of_plain hplain)
  | comment => exact Or.inr ⟨_, _, rfl⟩
  | progress => exact Or.inl rfl
  | archive hid => exact Or.inl hid

/-- A call in a completion changes the record of its own row only. -/
theorem same_of_rowChange {own : ℕ} {now : ℤ} {op : QueueOp} {r r' : MergeRequestRow}
    (hop : (Op.db op).completes own) (h : op.RowChange now r r') :
    (r.id ≠ own → r'.pendingCompletion = r.pendingCompletion) ∧
      (r'.pendingCompletion.isSome = true → r.pendingCompletion.isSome = true) ∧
      r'.requeueRequest = r.requeueRequest := by
  cases op with
  | getQueueItem | getActiveQueue | getPendingCompletions | getStaleMrs | getMrState =>
      cases h
      exact ⟨fun _ ↦ rfl, fun h ↦ h, rfl⟩
  | clearPendingNotification | stageCompletionPositions =>
      obtain ⟨note, rfl⟩ := h
      exact ⟨fun _ ↦ rfl, fun h ↦ h, rfl⟩
  | saveCompletionProgress projectId queueId payload =>
      rcases h with rfl | ⟨-, hid, hsome, rfl⟩
      · exact ⟨fun _ ↦ rfl, fun h ↦ h, rfl⟩
      · exact ⟨fun hne ↦ absurd (hid.trans hop) hne, fun _ ↦ hsome, rfl⟩
  | finalizeCompletion =>
      obtain ⟨note, ignored, rfl⟩ := h
      exact ⟨fun _ ↦ rfl, fun h ↦ h, rfl⟩
  | _ => cases hop

/-- A completion deletes no row but its own. -/
theorem not_deletes_of_completes {own : ℕ} {op : QueueOp} {r : MergeRequestRow}
    (hop : (Op.db op).completes own) (hne : r.id ≠ own) : ¬ op.Deletes r := by
  intro hdeletes
  cases op with
  | finalizeCompletion => exact hne (hdeletes.2.1.trans hop)
  | addToQueue | completeMr | cleanupOldEntries => cases hop
  | _ => exact hdeletes

theorem history_subset {qm : QueueManager} {now : ℤ} {tokens : ℕ → Uuid} {op : QueueOp}
    {db db' : Database} {answer : op.Answer} {own : ℕ} (hop : (Op.db op).completes own)
    (h : op.exec qm now tokens db = .ok (answer, db')) : db.history.rows ⊆ db'.history.rows := by
  cases op with
  | finalizeCompletion projectId item payload =>
      cases answer with
      | false =>
          rcases finalizeCompletion_eq_ok h with ⟨-, rfl⟩ | ⟨htrue, -⟩
          · exact List.Subset.refl _
          · cases htrue
      | true =>
          obtain ⟨-, hhistory, -⟩ := finalizeCompletion_done h
          rw [hhistory]
          exact fun r hr ↦ KeyedTable.mem_insertOrIgnore_of_mem hr
  | completeMr => cases hop
  | _ =>
      rw [exec_history h rfl]
      exact List.Subset.refl _

theorem Frame.exec {settings : Settings} {choice : Choice} {op : Op} {w w' : World}
    {answer : Except PyError op.Answer} {own : ℕ} (hop : Asked own op)
    (h : World.exec settings.qm 0 choice op w = some (answer, w')) : Frame own w.db w'.db := by
  rcases World.exec_db_cases h with hsame | ⟨q, a, rfl, hexec⟩
  · rw [hsame]
    exact Frame.refl own w.db
  · have hcompletes : (Op.db q).completes own := by
      rcases hop with hop | ⟨_, _, hop⟩
      · exact hop
      · cases hop
    have hevolves := exec_evolves hexec
    refine ⟨hevolves.nextId_le, fun id hgone hbelow hid ↦ ?_, ?_, ?_,
      history_subset hcompletes hexec⟩
    · exact hgone (hevolves.hasId hbelow hid)
    · intro r' hr' hsome
      rcases hevolves.source r' hr' with ⟨r, hr, hid, hkey, hchange⟩ | ⟨-, hfresh⟩
      · simp only [key_mergeRequestRow, Prod.mk.injEq] at hkey
        obtain ⟨-, hpending, hrequeue⟩ := same_of_rowChange hcompletes hchange
        exact ⟨r, hr, hid.symm, hkey.1.symm, hkey.2.symm, hpending hsome, hrequeue.symm⟩
      · rw [pendingCompletion_of_fresh hfresh] at hsome
        cases hsome
    · intro r hr _ hne
      obtain ⟨r', hr', hid, hproject, hiid, hchange⟩ :=
        exec_row hexec hr (not_deletes_of_completes hcompletes hne)
      obtain ⟨hpending, -, hrequeue⟩ := same_of_rowChange hcompletes hchange
      exact ⟨r', hr', hid, hproject, hiid, hpending hne, hrequeue⟩

/-! ## Finishing one completion -/

section Finish

variable {settings : Settings} {s : Local} {log : List Op} {w : World} {item : QueueItem}
  {requeue : Option Requeue} {payload : CompletionPayload}

/-- The row of the completion is archived, unless its saved request cannot be carried out. -/
theorem finalizeCompletion_of_inRow {current : QueueItem} {db : Database}
    (h : InRow settings item requeue payload db) (hid : current.queueId = item.queueId)
    (hrequeue : current.requeueRequest = requeue) (now : ℤ) (tokens : ℕ → Uuid) :
    (∃ db', settings.qm.finalizeCompletion settings.gitlabProjectId current payload now tokens db =
      .ok (true, db')) ∨
    ¬ Admissible settings requeue ∧ ∃ e,
      settings.qm.finalizeCompletion settings.gitlabProjectId current payload now tokens db =
        .error e := by
  obtain ⟨r, hr, hrid, hproject, hiid, hpending, hsaved⟩ := h
  subst hrequeue
  have hhit : (db.mergeRequests.rows.any fun r : MergeRequestRow ↦
      r.projectId = settings.gitlabProjectId && r.id = current.queueId &&
        r.pendingCompletion = some payload && r.requeueRequest = current.requeueRequest) = true :=
    List.any_eq_true.mpr ⟨r, hr, by simp [hproject, hrid, hid, hpending, hsaved]⟩
  unfold QueueManager.finalizeCompletion
  simp only [hhit, if_true]
  cases hrequest : current.requeueRequest with
  | none => exact Or.inl ⟨_, rfl⟩
  | some request =>
      cases hcancelled : requeueIsCancelled request payload.labelEvents with
      | true =>
          simp only [hcancelled, if_true]
          exact Or.inl ⟨_, rfl⟩
      | false =>
          simp only [hcancelled, Bool.false_eq_true, if_false, QueueManager.transferRequeue]
          cases hadmission : request.admission with
          | none =>
              refine Or.inr ⟨fun hadmissible ↦ ?_, _, rfl⟩
              obtain ⟨admission, classes, hsome, -⟩ := hadmissible request rfl
              cases hadmission.symm.trans hsome
          | some admission =>
              cases hclasses : settings.qm.classifyLabels settings.gitlabProjectId
                  admission.params.labels admission.params.isHotfix with
              | ok classes =>
                  simp only [hclasses]
                  exact Or.inl ⟨_, rfl⟩
              | error e =>
                  simp only [hclasses]
                  refine Or.inr ⟨fun hadmissible ↦ ?_, e, rfl⟩
                  obtain ⟨admission', classes, hsome, hok⟩ := hadmissible request rfl
                  cases hadmission.symm.trans hsome
                  cases hclasses.symm.trans hok

/-- The completion is over: its row is gone and the history has its merge request. -/
structure Over (item : QueueItem) (payload : CompletionPayload) (db : Database) : Prop where
  below : item.queueId < db.mergeRequests.nextId
  gone : ¬ db.mergeRequests.HasId item.queueId
  archived : ∃ h ∈ db.history.rows, h.values.mrKey = payload.history.mrKey

theorem Over.frame {own : ℕ} {db db' : Database} (h : Over item payload db)
    (hframe : Frame own db db') : Over item payload db' where
  below := h.below.trans_le hframe.below
  gone := hframe.gone _ h.gone h.below
  archived := by
    obtain ⟨row, hrow, hkey⟩ := h.archived
    exact ⟨row, hframe.history hrow, hkey⟩

theorem mrKey_insertHistory (db : Database) (values : HistoryParams) :
    ∃ h ∈ (insertHistory db values).history.rows, h.values.mrKey = values.mrKey := by
  unfold insertHistory
  exact KeyedTable.exists_key_insertOrIgnore _

/-- Feedback about a place in the queue has all that its comment needs. -/
theorem render_waiting (status : NotificationStatus) (oldPosition oldTotal position total : ℕ)
    (item : QueueItem) : ∃ comment, Comment.render (.waiting status)
      (Context.update [("old_position", .number oldPosition), ("old_total", .number oldTotal)]
        [("position", .number position), ("total", .number total),
          ("estimated_minutes", .number (position * 15)),
          ("priority", .text item.priorityText), ("queued_at", .time item.queuedAt)]) =
      .ok comment := by
  cases status <;> exact ⟨_, rfl⟩

theorem finishes_acknowledge {mrIid : ℕ} {pending : Option PendingNotification}
    {post : Except PyError Unit → Local → List Op → World → Prop}
    (hpost : ∀ log' w', w'.locks = w.locks → post (.ok ()) s log' w') :
    Finishes (alone settings) (MRNotifier.acknowledge settings mrIid pending) s log w post := by
  cases pending with
  | none => exact Finishes.ret (hpost _ _ rfl)
  | some pending => exact finishes_db fun _ _ ↦ hpost _ _ rfl

/-- The feedback that waits on a row is told and acknowledged, or it is out of date. -/
theorem finishes_notifyIfQueued {mrIid : ℕ} {status : NotificationStatus} {oldPosition oldTotal : ℕ}
    {pending : Option PendingNotification} (hfree : NotificationsFree w.locks)
    {post : Except PyError Unit → Local → List Op → World → Prop}
    (hpost : ∀ log' w', w'.locks = w.locks → post (.ok ()) s log' w') :
    Finishes (alone settings)
      (MRNotifier.notifyIfQueued settings mrIid (.waiting status)
        [("old_position", .number oldPosition), ("old_total", .number oldTotal)] pending)
      s log w post := by
  have hlocks : ∀ entry ∈ w.locks, entry.1 ≠ .notification settings.gitlabProjectId mrIid :=
    fun entry hentry ↦ hfree entry hentry _ _
  -- every branch ends with the release of the lock
  have hend : ∀ (log' : List Op) (w' : World),
      w'.locks = (.notification settings.gitlabProjectId mrIid, 0) :: w.locks →
      post (.ok ()) s (log' ++ [.release (.notification settings.gitlabProjectId mrIid)])
        { w' with
          locks := w'.locks.filter (· ≠ (.notification settings.gitlabProjectId mrIid, 0)) } := by
    intro log' w' hw'
    refine hpost _ _ ?_
    rw [hw']
    exact filter_acquired hlocks
  refine Finishes.bind (finishes_acquire (held_eq_false hlocks) ?_)
  refine Finishes.ensuring (Finishes.bind (finishes_getQueueItem ?_))
  cases w.db.selectQueueItem settings.gitlabProjectId mrIid with
  | none => exact Finishes.ret (finishes_release (hend _ _ rfl))
  | some current =>
      simp only
      split_ifs
      · exact Finishes.ret (finishes_release (hend _ _ rfl))
      · exact finishes_acknowledge fun log' w' hw' ↦ finishes_release (hend _ _ hw')
      · refine Finishes.bind (finishes_db fun _ _ ↦ ?_)
        simp only [QueueOp.exec, Except.mapError, Except.map]
        split
        · exact Finishes.ret (finishes_release (hend _ _ rfl))
        · next index _ =>
            obtain ⟨comment, hcomment⟩ := render_waiting status oldPosition oldTotal (index + 1)
              (getActiveQueue settings.gitlabProjectId w.db).length current
            simp only [MRNotifier.sendNotification, hcomment]
            refine Finishes.bind (finishes_gitlab fun _ ↦ ?_)
            exact finishes_acknowledge fun log' w' hw' ↦ finishes_release (hend _ _ hw')

theorem finishes_retryItem (hfree : NotificationsFree w.locks)
    {post : Except PyError Unit → Local → List Op → World → Prop}
    (hpost : ∀ log' w', w'.locks = w.locks → post (.ok ()) s log' w') :
    Finishes (alone settings) (QueuePositionNotifier.retryItem settings item) s log w post := by
  unfold QueuePositionNotifier.retryItem
  cases item.pendingNotification with
  | none => exact Finishes.ret (hpost _ _ rfl)
  | some pending => exact Finishes.handle (finishes_notifyIfQueued hfree hpost)

/-- The feedback for the merge requests that moved up. -/
theorem finishes_afterCompletion (hfree : NotificationsFree w.locks)
    {post : Except PyError Unit → Local → List Op → World → Prop}
    (hpost : ∀ log' w', w'.locks = w.locks → post (.ok ()) s log' w') :
    Finishes (alone settings) (QueueCompletion.afterCompletion settings payload) s log w post := by
  have hbroadcast : ∀ log' w', w'.locks = w.locks →
      Finishes (alone settings) (broadcast settings) s log' w' post := by
    intro log' w' hw'
    refine finishes_broadcast fun log'' ↦ hpost _ _ hw'
  unfold QueueCompletion.afterCompletion
  split
  · refine Finishes.bind (Finishes.bind (finishes_db fun _ _ ↦ ?_))
    refine Finishes.bind (finishes_db fun _ _ ↦ ?_)
    refine Finishes.forEach (I := fun s' _ w' ↦ s' = s ∧ w'.locks = w.locks) ?_ ⟨rfl, rfl⟩ ?_
    · rintro item - s' log' w' ⟨rfl, hw'⟩
      exact finishes_retryItem (hw' ▸ hfree) fun log'' w'' hw'' ↦ ⟨rfl, hw''.trans hw'⟩
    · rintro s' log' w' ⟨rfl, hw'⟩
      exact hbroadcast log' w' hw'
  · exact hbroadcast log w rfl

/-- What follows the archival leaves the completion over. -/
theorem finishes_afterArchive (hfree : NotificationsFree w.locks) (hover : Over item payload w.db)
    (record : CompletionPayload) :
    Finishes (alone settings) (QueueCompletion.afterCompletion settings record) s log w
      fun result _ _ w' ↦ result = .ok () ∧ w'.locks = w.locks ∧ Over item payload w'.db := by
  have hafter : Finishes (alone settings) (QueueCompletion.afterCompletion settings record) s log w
      fun result _ _ w' ↦ result = .ok () ∧ w'.locks = w.locks :=
    finishes_afterCompletion hfree fun log' w' hw' ↦ ⟨rfl, hw'⟩
  refine Finishes.mono (Finishes.keeps (K := fun _ (w' : World) ↦ Frame item.queueId w.db w'.db)
    hafter (QueueCompletion.tends_afterCompletion record) ?_ (Frame.refl _ _)) ?_
  · intro op choice log₁ w₁ answer w₂ hop _ hexec hK
    exact hK.trans (Frame.exec (Or.inl (Op.completes_of_plain (Op.plain_of_tends hop))) hexec)
  · rintro result _ _ w' ⟨⟨rfl, hlocks⟩, hK, -⟩
    exact ⟨rfl, hlocks, hover.frame hK⟩

/-- A completion that was interrupted anywhere is told, cleaned up and archived, and the others
wait as before.  It fails only over a saved request that cannot be carried out. -/
theorem finishes_finish (hpending : item.pendingCompletion = some payload)
    (h : InRow settings item requeue payload w.db) (hfree : NotificationsFree w.locks)
    (htell : Tellable payload) :
    Finishes (alone settings) (QueueCompletion.finish settings item) s log w
      fun result s' _ w' ↦ (w'.locks = w.locks ∧
          (result = .ok () ∧ Over item payload w'.db ∨
            ¬ Admissible settings requeue ∧ ∃ e, result = .error e ∧ e.isException = true)) ∧
        Frame item.queueId w.db w'.db ∧ s' = s := by
  refine Finishes.keeps (K := fun _ (w' : World) ↦ Frame item.queueId w.db w'.db) ?_
    (QueueCompletion.leaves_finish hpending)
    (fun op choice log₁ w₁ answer w₂ hop _ hexec hK ↦ hK.trans
      (Frame.exec (asked_of_finishing hop) hexec)) (Frame.refl _ _)
  simp only [QueueCompletion.finish, hpending]
  refine Finishes.bind (finishes_deliverComment h hfree htell
    fun payload₁ log₁ w₁ hlocks₁ h₁ hfrozen₁ ↦ ?_)
  refine Finishes.bind (finishes_cleanup h₁ hfrozen₁ fun payload₂ log₂ w₂ hlocks₂ h₂ hfrozen₂ ↦ ?_)
  obtain ⟨current, hcurrent, hid, hiid, hrequeue, -⟩ := h₂.selectQueueItem
  refine Finishes.bind (finishes_getQueueItem ?_)
  simp only [hcurrent, hid, if_true, QueueCompletion.archive, hrequeue]
  have hlocks₂' : w₂.locks = w.locks := hlocks₂.trans hlocks₁
  refine Finishes.bind (finishes_settleRequeue h₂ hfrozen₂
    (fun hbare ↦ ⟨hlocks₂', Or.inr ⟨hbare, _, rfl, rfl⟩⟩)
    fun payload₃ log₃ w₃ hlocks₃ h₃ hfrozen₃ ↦ ?_)
  have hlocks : w₃.locks = w.locks := hlocks₃.trans hlocks₂'
  refine Finishes.bind (finishes_db fun now tokens ↦ ?_)
  rcases finalizeCompletion_of_inRow h₃ hid hrequeue now tokens with
    ⟨db', hdone⟩ | ⟨hbare, e, herror⟩
  · obtain ⟨hgone, hhistory, -⟩ := finalizeCompletion_done hdone
    have hexec : (finalizeCompletion settings.gitlabProjectId current payload₃).exec settings.qm now
        tokens w₃.db = .ok (true, db') := hdone
    have hover : Over item payload db' := by
      obtain ⟨r, hr, hrid, -⟩ := h₃
      refine ⟨?_, hid ▸ hgone, ?_⟩
      · have hbelow : r.id < w₃.db.mergeRequests.nextId := w₃.db.mergeRequests.below r hr
        rw [hrid] at hbelow
        exact hbelow.trans_le (exec_evolves hexec).nextId_le
      · rw [hhistory, ← CompletionPayload.history_of_continues hfrozen₃]
        exact mrKey_insertHistory w₃.db payload₃.history
    simp only [hexec, committed_ok, Except.mapError, Except.map, if_true]
    refine Finishes.mono (finishes_afterArchive (hlocks.symm ▸ hfree) hover payload₃) ?_
    rintro result _ _ w' ⟨hresult, hlocks', hover'⟩
    exact ⟨hlocks'.trans hlocks, Or.inl ⟨hresult, hover'⟩⟩
  · have hexec : (finalizeCompletion settings.gitlabProjectId current payload₃).exec settings.qm now
        tokens w₃.db = .error e := herror
    simp only [hexec, committed_error, Except.mapError, Except.map]
    exact ⟨hlocks, Or.inr ⟨hbare, _, rfl, rfl⟩⟩

/-- A recovery of the row `own` ends without an exception that is not caught, and the row is over
unless its saved request cannot be carried out. -/
theorem finishes_recover {r₀ : MergeRequestRow}
    (h : InRow settings (rowToQueueItem r₀) r₀.requeueRequest payload w.db) (hlocks : w.locks = [])
    (htell : Tellable payload) :
    Finishes (alone settings) (QueueCompletion.recover settings r₀.iid r₀.id) s log w
      fun result s' _ w' ↦ (result = .ok () ∧ Over (rowToQueueItem r₀) payload w'.db ∨
          ¬ Admissible settings r₀.requeueRequest ∧ ∃ e, result = .error e ∧ e.isException = true) ∧
        w'.locks = [] ∧ Frame r₀.id w.db w'.db ∧ s' = s := by
  have hfree : ∀ entry ∈ w.locks, entry.1 ≠ .completion settings.gitlabProjectId r₀.iid := by
    simp [hlocks]
  unfold QueueCompletion.recover Prog.withLock
  refine Finishes.bind (finishes_acquire (held_eq_false hfree) (Finishes.ensuring ?_))
  obtain ⟨current, hcurrent, hid, hiid, hrequeue, hsaved⟩ := h.selectQueueItem
  refine Finishes.bind (finishes_getQueueItem ?_)
  have hcurrent' : w.db.selectQueueItem settings.gitlabProjectId r₀.iid = some current := hcurrent
  have hid' : current.queueId = r₀.id := hid
  have howned : current.queueId = r₀.id ∧ current.pendingCompletion.isSome = true :=
    ⟨hid', by rw [hsaved]; rfl⟩
  simp only [hcurrent', if_pos howned]
  have hrow : InRow settings current r₀.requeueRequest payload w.db := by
    obtain ⟨r, hr, hrid, hproject, hriid, hrest⟩ := h
    exact ⟨r, hr, hrid.trans hid.symm, hproject, hriid.trans hiid.symm, hrest⟩
  refine Finishes.mono (finishes_finish hsaved hrow ?_ htell) ?_
  · intro entry hentry
    rw [hlocks, List.mem_singleton] at hentry
    rintro _ _ heq
    rw [hentry] at heq
    cases heq
  · rintro result s' log' w' ⟨⟨hlocks', hresult⟩, hframe, rfl⟩
    have hframe' : Frame r₀.id w.db w'.db := hid' ▸ hframe
    refine finishes_release ⟨?_, ?_, hframe', rfl⟩
    · refine hresult.imp_left fun ⟨hok, hover⟩ ↦ ⟨hok, ?_⟩
      have hbelow : r₀.id < w'.db.mergeRequests.nextId := hid' ▸ hover.below
      have hgone : ¬ w'.db.mergeRequests.HasId r₀.id := hid' ▸ hover.gone
      exact ⟨hbelow, hgone, hover.archived⟩
    · change w'.locks.filter _ = []
      rw [hlocks', filter_acquired hfree, hlocks]

end Finish

/-! ## All pending completions -/

/-- What a recovery has made of the completions that waited in `db₀`, where those of `rest` are
still to come. -/
structure Recovering (settings : Settings) (db₀ : Database) (rest : List QueueItem)
    (w : World) : Prop where
  locks : w.locks = []
  todo : ∀ r₀ ∈ db₀.mergeRequests.rows, r₀.projectId = settings.gitlabProjectId →
    ∀ payload, r₀.pendingCompletion = some payload → r₀.id ∈ rest.map QueueItem.queueId →
      InRow settings (rowToQueueItem r₀) r₀.requeueRequest payload w.db
  ended : ∀ r₀ ∈ db₀.mergeRequests.rows, r₀.projectId = settings.gitlabProjectId →
    ∀ payload, r₀.pendingCompletion = some payload → r₀.id ∉ rest.map QueueItem.queueId →
      Admissible settings r₀.requeueRequest → Over (rowToQueueItem r₀) payload w.db
  source : ∀ r ∈ w.db.mergeRequests.rows, r.pendingCompletion.isSome = true →
    ∃ r₀ ∈ db₀.mergeRequests.rows, r₀.id = r.id ∧ r₀.projectId = r.projectId ∧ r₀.iid = r.iid ∧
      r₀.pendingCompletion.isSome = true ∧ r₀.requeueRequest = r.requeueRequest

section Batch

variable {settings : Settings} {db₀ : Database} {rest : List QueueItem} {w w' : World}

theorem InRow.frame {own : ℕ} {item : QueueItem} {requeue : Option Requeue}
    {payload : CompletionPayload} {db db' : Database} (h : InRow settings item requeue payload db)
    (hframe : Frame own db db') (hne : item.queueId ≠ own) :
    InRow settings item requeue payload db' := by
  obtain ⟨r, hr, hid, hproject, hiid, hpending, hrequeue⟩ := h
  obtain ⟨r', hr', hid', hproject', hiid', hpending', hrequeue'⟩ :=
    hframe.kept r hr (by rw [hpending]; rfl) (hid ▸ hne)
  exact ⟨r', hr', hid'.trans hid, hproject'.trans hproject, hiid'.trans hiid,
    hpending'.trans hpending, hrequeue'.trans hrequeue⟩

theorem Recovering.step {r₀ : MergeRequestRow} {payload : CompletionPayload}
    (h : Recovering settings db₀ (rowToQueueItem r₀ :: rest) w)
    (hr₀ : r₀ ∈ db₀.mergeRequests.rows) (hpending : r₀.pendingCompletion = some payload)
    (hnodup : r₀.id ∉ rest.map QueueItem.queueId) (hlocks : w'.locks = [])
    (hframe : Frame r₀.id w.db w'.db)
    (hover : Admissible settings r₀.requeueRequest → Over (rowToQueueItem r₀) payload w'.db) :
    Recovering settings db₀ rest w' where
  locks := hlocks
  todo r hr hproject saved hsaved hmem :=
    (h.todo r hr hproject saved hsaved (List.mem_cons_of_mem _ hmem)).frame hframe
      fun heq ↦ hnodup (heq ▸ hmem)
  ended r hr hproject saved hsaved hmem hadmissible := by
    by_cases heq : r.id = r₀.id
    · obtain rfl := db₀.mergeRequests.eq_of_rowId_eq hr hr₀ heq
      cases hpending.symm.trans hsaved
      exact hover hadmissible
    · have hnot : r.id ∉ (rowToQueueItem r₀ :: rest).map QueueItem.queueId := by
        rw [List.map_cons, List.mem_cons, not_or]
        exact ⟨heq, hmem⟩
      exact (h.ended r hr hproject saved hsaved hnot hadmissible).frame hframe
  source r hr hsome := by
    obtain ⟨r₁, hr₁, hid₁, hproject₁, hiid₁, hsome₁, hrequeue₁⟩ := hframe.source r hr hsome
    obtain ⟨r₂, hr₂, hid₂, hproject₂, hiid₂, hsome₂, hrequeue₂⟩ := h.source r₁ hr₁ hsome₁
    exact ⟨r₂, hr₂, hid₂.trans hid₁, hproject₂.trans hproject₁, hiid₂.trans hiid₁, hsome₂,
      hrequeue₂.trans hrequeue₁⟩

/-- One completion after the other is taken up, and one that fails does not stop the next ones. -/
theorem finishes_recoverEach {s : Local} {log : List Op}
    {post : Except PyError Unit → Local → List Op → World → Prop}
    (htell : ∀ r ∈ db₀.mergeRequests.rows, ∀ payload, r.pendingCompletion = some payload →
      Tellable payload)
    (hrest : ∀ item ∈ rest, ∃ r₀ ∈ db₀.mergeRequests.rows,
      r₀.projectId = settings.gitlabProjectId ∧ r₀.pendingCompletion.isSome = true ∧
        rowToQueueItem r₀ = item)
    (hnodup : (rest.map QueueItem.queueId).Nodup) (h : Recovering settings db₀ rest w)
    (hpost : ∀ log' w', Recovering settings db₀ [] w' → post (.ok ()) s log' w') :
    Finishes (alone settings)
      (Program.forEach
        (fun item : QueueItem ↦
          tryCatch (QueueCompletion.recover settings item.mrIid item.queueId)
            fun e ↦ if e.isException then pure () else throw e)
        rest) s log w post := by
  induction rest generalizing log w with
  | nil => exact Finishes.ret (hpost log w h)
  | cons item rest ih =>
      rw [List.forall_mem_cons] at hrest
      obtain ⟨⟨r₀, hr₀, hproject, hsome, rfl⟩, hrest⟩ := hrest
      rw [List.map_cons, List.nodup_cons] at hnodup
      obtain ⟨payload, hpending⟩ := Option.isSome_iff_exists.mp hsome
      have hrow : InRow settings (rowToQueueItem r₀) r₀.requeueRequest payload w.db :=
        h.todo r₀ hr₀ hproject payload hpending (by simp [rowToQueueItem])
      refine Finishes.bind (Finishes.handle (Finishes.mono
        (finishes_recover hrow h.locks (htell r₀ hr₀ payload hpending)) ?_))
      rintro result s' log' w' ⟨hresult, hlocks, hframe, rfl⟩
      rcases hresult with ⟨rfl, hover⟩ | ⟨hbare, e, rfl, he⟩
      · exact ih hrest hnodup.2 (h.step hr₀ hpending hnodup.1 hlocks hframe fun _ ↦ hover)
      · simp only [he, if_true]
        refine Finishes.ret (ih hrest hnodup.2 (h.step hr₀ hpending hnodup.1 hlocks hframe ?_))
        exact fun hadmissible ↦ absurd hadmissible hbare

end Batch

/-- After any calls, a recovery that nobody disturbs takes up every pending completion of its
project.  It archives each one and gives back its lock, and those that still wait afterwards
waited before, with a saved request that cannot be carried out. -/
theorem recoverAll_finishes_pending {calls : List Call} (hcalls : Permitted calls .empty)
    (hbuilt : FreezesBuilt calls) (settings : Settings) (s : Local) (log : List Op) {w : World}
    (hdb : w.db = (run calls .empty).db) (hlocks : w.locks = []) :
    Finishes (alone settings) (QueueCompletion.recoverAll settings) s log w fun result s' _ w' ↦
      result = .ok (!(getPendingCompletions settings.gitlabProjectId w.db).isEmpty) ∧ s' = s ∧
      w'.locks = [] ∧
      (∀ r ∈ w.db.mergeRequests.rows, r.projectId = settings.gitlabProjectId →
        r.pendingCompletion.isSome = true → Admissible settings r.requeueRequest →
          ¬ w'.db.mergeRequests.HasId r.id ∧
            ∃ h ∈ w'.db.history.rows, h.values.mrKey = (r.projectId, r.iid)) ∧
      ∀ r ∈ w'.db.mergeRequests.rows, r.projectId = settings.gitlabProjectId →
        r.pendingCompletion.isSome = true → ¬ Admissible settings r.requeueRequest ∧
          ∃ r₀ ∈ w.db.mergeRequests.rows, r₀.id = r.id ∧ r₀.pendingCompletion.isSome = true ∧
            r₀.requeueRequest = r.requeueRequest := by
  have htell : ∀ r ∈ w.db.mergeRequests.rows, ∀ payload, r.pendingCompletion = some payload →
      Tellable payload := by
    intro r hr payload hpending
    exact Or.inr (render_of_built
      ((builtRequests_empty.run hcalls hbuilt).rows r (hdb ▸ hr) payload hpending))
  have hkey : ∀ r ∈ w.db.mergeRequests.rows, ∀ payload, r.pendingCompletion = some payload →
      payload.history.mrKey = (r.projectId, r.iid) := by
    intro r hr payload hpending
    exact ((tracked_empty.run hcalls).owned r (hdb ▸ hr) payload hpending).2
  have hwaiting : ∀ item ∈ getPendingCompletions settings.gitlabProjectId w.db,
      ∃ r₀ ∈ w.db.mergeRequests.rows, r₀.projectId = settings.gitlabProjectId ∧
        r₀.pendingCompletion.isSome = true ∧ rowToQueueItem r₀ = item := by
    intro item hitem
    obtain ⟨r₀, hr₀, rfl⟩ := List.mem_map.mp hitem
    obtain ⟨hr₀, hwaits⟩ := List.mem_filter.mp hr₀
    simp only [Bool.and_eq_true, decide_eq_true_eq] at hwaits
    exact ⟨r₀, hr₀, hwaits.1, hwaits.2, rfl⟩
  have hstart : Recovering settings w.db (getPendingCompletions settings.gitlabProjectId w.db) w :=
    { locks := hlocks
      todo := fun r hr hproject payload hpending _ ↦ ⟨r, hr, rfl, hproject, rfl, hpending, rfl⟩
      ended := fun r hr hproject payload hpending hnot _ ↦ by
        refine absurd (List.mem_map.mpr ⟨rowToQueueItem r, List.mem_map.mpr ⟨r, ?_, rfl⟩, rfl⟩) hnot
        exact List.mem_filter.mpr ⟨hr, by simp [hproject, hpending]⟩
      source := fun r hr hsome ↦ ⟨r, hr, rfl, rfl, rfl, hsome, rfl⟩ }
  have hnodup : ((getPendingCompletions settings.gitlabProjectId w.db).map
      QueueItem.queueId).Nodup := by
    have hordered := w.db.mergeRequests.ordered.sublist (List.filter_sublist (p := fun r ↦
      r.projectId = settings.gitlabProjectId && r.pendingCompletion.isSome))
    rw [QueueManager.getPendingCompletions, List.map_map, List.Nodup, List.pairwise_map]
    exact hordered.imp fun hlt ↦ Nat.ne_of_lt hlt
  refine Finishes.bind (finishes_db fun now tokens ↦ ?_)
  refine Finishes.bind (finishes_recoverEach htell hwaiting hnodup hstart fun log' w' h ↦ ?_)
  refine Finishes.ret ⟨rfl, rfl, h.locks, fun r hr hproject hsome hadmissible ↦ ?_,
    fun r hr hproject hsome ↦ ?_⟩
  · obtain ⟨payload, hpending⟩ := Option.isSome_iff_exists.mp hsome
    have hover := h.ended r hr hproject payload hpending (by simp) hadmissible
    exact ⟨hover.gone, hkey r hr payload hpending ▸ hover.archived⟩
  · obtain ⟨r₀, hr₀, hid, hproject₀, -, hsome₀, hrequeue⟩ := h.source r hr hsome
    refine ⟨fun hadmissible ↦ ?_, r₀, hr₀, hid, hsome₀, hrequeue⟩
    obtain ⟨payload, hpending⟩ := Option.isSome_iff_exists.mp hsome₀
    have hover := h.ended r₀ hr₀ (hproject₀.trans hproject) payload hpending (by simp)
      (hrequeue ▸ hadmissible)
    exact hover.gone ⟨r, hr, hid.symm⟩

end Recovery

end MergeQueue
