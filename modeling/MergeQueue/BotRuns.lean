import MergeQueue.AdmissionReceipts
import MergeQueue.Projects
import MergeQueue.Recovery

/-!
# What the runs of the bot make of the queue

A task passes on only items that some task was given.  Hence what the tasks of all projects do
to the database, in any order and with any faults and crashes, is a run of calls of the queue
manager that their callers may make, and what is known of such runs holds of the bot.
-/

namespace MergeQueue

open Interleave (Config Event Move)
open QueueManager QueueOp

section Runs

variable {qm : QueueManager}

/-! ## What the tasks were given -/

/-- The items that tasks have learnt. -/
def givenBy (events : List (Event (botSystem qm))) : List QueueItem :=
  events.flatMap fun e ↦ Op.items e.op e.answer

theorem asking_of_body (given : Learnt) (task : BotTask) :
    (task.body qm {}).Asks (Op.Gives task.project given) (fun _ ↦ Op.Proper task.project given)
      (fun _ _ ↦ True) fun _ _ ↦ True := by
  refine Interleave.Task.Nests.asks (task.orderly_body qm given {} [] ?_ ?_)
  · intro m hm
    cases hm
  · simp

/-- An operation passes on nothing but what tasks have learnt before. -/
theorem proper_of_gives {given : Learnt} {moves : List (Move (botSystem qm))}
    {move : Move (botSystem qm)} {e : Event (botSystem qm)}
    (hgives : ∀ e ∈ (firstStart qm).events moves,
      Op.Gives (BotTask.project e.entry) given e.op e.answer)
    (h : ((firstStart qm).run moves).event move = some e) :
    e.op.Proper (BotTask.project e.entry) given := by
  have hstart : (firstStart qm).Asking (fun (task : BotTask) _ ↦ Op.Proper task.project given)
      fun task : BotTask ↦ Op.Gives task.project given := ⟨by simp [firstStart]⟩
  have hasking := hstart.run (fun task ↦ asking_of_body given task) hgives
  obtain ⟨choice, next, hthread, -, -, -⟩ := Config.exists_of_event h
  exact (hasking.threads _ (List.mem_of_getElem? hthread)).1

/-- Only the items count. -/
def Learnt.ofItems (items : QueueItem → Prop) : Learnt where
  items := items
  comments _ _ _ := True

theorem proper_of_event {moves : List (Move (botSystem qm))} {move : Move (botSystem qm)}
    {e : Event (botSystem qm)} (h : ((firstStart qm).run moves).event move = some e) :
    e.op.Proper (BotTask.project e.entry)
      (.ofItems (· ∈ givenBy ((firstStart qm).events moves))) := by
  refine proper_of_gives (fun e he ↦ ?_) h
  have hterms := (firstStart_inOrder qm).terms_of_mem_events (botPlan_sound qm) he
  have hitems := (Op.Gives.tells hterms.2.1).items
  exact ⟨fun item hitem ↦ ⟨hitems item hitem, List.mem_flatMap.mpr ⟨e, he, hitem⟩,
    fun _ _ _ ↦ trivial⟩, fun _ _ _ ↦ trivial⟩

/-! ## The calls of a run -/

theorem run_concat (calls : List Call) (call : Call) (w : QueueWorld) :
    run (calls ++ [call]) w = call.apply (run calls w) := by
  simp [run]

theorem permitted_concat {calls : List Call} {call : Call} {w : QueueWorld}
    (h : Permitted calls w) (hcall : call.permitted (run calls w) = true) :
    Permitted (calls ++ [call]) w := by
  induction calls generalizing w with
  | nil => exact ⟨hcall, trivial⟩
  | cons first calls ih => exact ⟨h.1, ih h.2 hcall⟩

theorem permitted_of_proper {call : Call} {w : QueueWorld} {projectId : ℕ}
    {given : Learnt} (hgiven : ∀ item, given.items item → item ∈ w.items)
    (h : call.op.Proper projectId given) : call.permitted w = true := by
  unfold Call.permitted
  split
  · next hop =>
      rw [hop] at h
      exact List.contains_iff_mem.mpr (hgiven _ h.2)
  · next hop =>
      rw [hop] at h
      exact List.contains_iff_mem.mpr (hgiven _ h.2.1)
  · next hop =>
      rw [hop] at h
      obtain ⟨item, saved, hitem, hid, hsaved, hcontinues⟩ := h.2.carried
      exact List.any_eq_true.mpr ⟨item, hgiven item hitem, by simp [hid, hsaved, hcontinues]⟩
  · rfl

theorem QueueOp.Proper.forget {projectId : ℕ} {given : Learnt} {op : QueueOp}
    (h : op.Proper projectId given) : op.Proper projectId (.ofItems fun _ ↦ True) := by
  cases op with
  | deferRequeue => exact ⟨h.1, trivial⟩
  | finalizeCompletion => exact ⟨h.1, trivial, h.2.2⟩
  | saveCompletionProgress =>
      obtain ⟨item, saved, -, hcarried⟩ := h.2.carried
      refine ⟨h.1, h.2.project, ⟨item, saved, trivial, hcarried⟩, fun hsent ↦ ?_⟩
      obtain ⟨item, -, hid, -⟩ := h.2.told hsent
      exact ⟨item, trivial, hid, trivial⟩
  | _ => exact h

/-- The calls that tasks make. -/
def Call.OfTask (qm : QueueManager) (call : Call) : Prop :=
  call.qm = qm ∧ ∃ projectId, call.op.Proper projectId (.ofItems fun _ ↦ True)

/-- The calls lead to the database, and hand out all items that the tasks were given. -/
structure Follows (qm : QueueManager) (db : Database) (given : List QueueItem)
    (calls : List Call) : Prop where
  permitted : Permitted calls .empty
  ofTask : ∀ call ∈ calls, call.OfTask qm
  db : (run calls .empty).db = db
  items : ∀ item ∈ given, item ∈ (run calls .empty).items

theorem Follows.exec {thread : ℕ} {choice : Choice} {op : Op} {w w' : World}
    {answer : Except PyError op.Answer} {projectId : ℕ} {given : List QueueItem}
    {calls : List Call} (h : Follows qm w.db given calls)
    (hop : op.Proper projectId (.ofItems (· ∈ given)))
    (hexec : World.exec qm thread choice op w = some (answer, w')) :
    ∃ more : List Call, (more.map fun call ↦ Op.db call.op).Sublist [op] ∧
      Follows qm w'.db (given ++ op.items answer) (calls ++ more) := by
  have hsame (hdb : w'.db = w.db) (hitems : op.items answer = []) :
      Follows qm w'.db (given ++ op.items answer) (calls ++ []) := by
    rw [hdb, hitems, List.append_nil, List.append_nil]
    exact h
  by_cases hq : ∃ q, op = .db q
  · obtain ⟨q, rfl⟩ := hq
    rcases (World.exec_db hexec).2.2 with ⟨hdb, e, rfl⟩ | ⟨a, hdone, hanswer⟩
    · exact ⟨[], List.nil_sublist _, hsame hdb rfl⟩
    · let call : Call := { qm, now := choice.now, tokens := choice.tokens, op := q }
      have hcall : call.op.exec call.qm call.now call.tokens (run calls .empty).db =
          .ok (a, w'.db) := by
        rw [h.db]
        exact hdone
      have hrun : run (calls ++ [call]) .empty =
          { db := w'.db
            items := (run calls .empty).items ++ q.items a
            frozen := (run calls .empty).frozen ++ call.freezes (run calls .empty).db
            ended := (run calls .empty).ended ++ q.ends call.now (run calls .empty) a } := by
        rw [run_concat, Call.apply, hcall]
      refine ⟨[call], List.Sublist.refl _, ?_, ?_, ?_, ?_⟩
      · exact permitted_concat h.permitted (permitted_of_proper h.items hop)
      · intro other hother
        rcases List.mem_append.mp hother with hold | hnew
        · exact h.ofTask other hold
        · rw [List.mem_singleton.mp hnew]
          exact ⟨rfl, projectId, QueueOp.Proper.forget hop⟩
      · rw [hrun]
      · intro item hitem
        rw [hrun]
        refine List.mem_append.mpr ((List.mem_append.mp hitem).imp (h.items item) fun hnew ↦ ?_)
        rcases hanswer with rfl | ⟨e, rfl⟩
        · exact hnew
        · cases hnew
  · have hdb := World.exec_db_eq hexec fun q heq ↦ hq ⟨q, heq⟩
    refine ⟨[], List.nil_sublist _, hsame hdb ?_⟩
    cases op with
    | db q => exact absurd ⟨q, rfl⟩ hq
    | _ => rfl

/-- Every run of the bot is one of calls. -/
theorem exists_calls (moves : List (Move (botSystem qm))) :
    ∃ calls : List Call,
      (calls.map fun call ↦ Op.db call.op).Sublist (((firstStart qm).events moves).map Event.op) ∧
      Follows qm ((firstStart qm).run moves).world.db (givenBy ((firstStart qm).events moves))
        calls := by
  induction moves using List.reverseRecOn with
  | nil =>
      refine ⟨[], List.nil_sublist _, trivial, by simp, rfl, ?_⟩
      simp [givenBy]
  | append_singleton moves move ih =>
      obtain ⟨calls, hcalls, hfollows⟩ := ih
      rw [Config.run_append, Config.events_append]
      cases hevent : ((firstStart qm).run moves).event move with
      | none =>
          refine ⟨calls, ?_, ?_⟩
          · simpa [hevent] using hcalls
          · have hdb : (((firstStart qm).run moves).apply move).world.db =
                ((firstStart qm).run moves).world.db := by
              rcases Config.apply_of_event_eq_none hevent with ⟨entry, h⟩ | h | h <;>
                rw [h] <;> rfl
            simpa [hevent, hdb] using hfollows
      | some e =>
          obtain ⟨choice, next, -, hexec, hbefore, happly⟩ := Config.exists_of_event hevent
          obtain ⟨more, hmore, hfollows'⟩ := hfollows.exec (proper_of_event hevent)
            (World.exec_of_serve hexec)
          refine ⟨calls ++ more, ?_, ?_⟩
          · simpa [hevent] using hcalls.append hmore
          · simpa [hevent, happly, givenBy] using hfollows'

/-- An event is a call, or none, after the calls that led to it. -/
theorem exists_calls_of_event {moves : List (Move (botSystem qm))} {e : Event (botSystem qm)}
    (he : e ∈ (firstStart qm).events moves) :
    ∃ given calls choice, Follows qm e.before.db given calls ∧
      e.op.Proper (BotTask.project e.entry) (.ofItems (· ∈ given)) ∧
      World.exec qm e.thread choice e.op e.before = some (e.answer, e.after) := by
  obtain ⟨past, move, rest, -, hevent⟩ := Config.exists_past_of_mem_events he
  obtain ⟨calls, -, hfollows⟩ := exists_calls past
  obtain ⟨choice, next, -, hexec, hbefore, -⟩ := Config.exists_of_event hevent
  rw [← hbefore] at hexec hfollows
  exact ⟨_, calls, choice, hfollows, proper_of_event hevent, World.exec_of_serve hexec⟩

theorem Follows.freezesBuilt {db : Database} {given : List QueueItem} {calls : List Call}
    (h : Follows qm db given calls) : FreezesBuilt calls := by
  intro call hcall projectId mrIid request hop
  obtain ⟨-, project, hproper⟩ := h.ofTask call hcall
  rw [hop] at hproper
  exact hproper.2

/-- Whatever the tasks of all projects do, whatever fails and whenever the process crashes: the
database is the one that permitted calls lead to, made one after the other as the tasks asked
for them, with outcomes that the program builds. -/
theorem bot_makes_permitted_calls (qm : QueueManager) (moves : List (Move (botSystem qm))) :
    ∃ calls : List Call, Permitted calls .empty ∧ FreezesBuilt calls ∧
      (calls.map fun call ↦ Op.db call.op).Sublist (((firstStart qm).events moves).map Event.op) ∧
      (run calls .empty).db = ((firstStart qm).run moves).world.db := by
  obtain ⟨calls, hsublist, hfollows⟩ := exists_calls moves
  exact ⟨calls, hfollows.permitted, hfollows.freezesBuilt, hsublist, hfollows.db⟩

end Runs

/-! ## Frozen outcomes -/

theorem CompletionPayload.continues_symm {payload saved : CompletionPayload}
    (h : payload.continues saved = true) : saved.continues payload = true := by
  simp only [continues, Bool.and_eq_true, decide_eq_true_eq] at h ⊢
  obtain ⟨⟨⟨⟨hid, hrequest⟩, hhistory⟩, hfinished⟩, hconsumed⟩ := h
  exact ⟨⟨⟨⟨hid.symm, hrequest.symm⟩, hhistory.symm⟩, hfinished.symm⟩, hconsumed.symm⟩

/-- An outcome that was frozen stays, up to the progress made. -/
def Recorded (r r' : MergeRequestRow) : Prop :=
  ∀ payload, r.pendingCompletion = some payload →
    ∃ payload', r'.pendingCompletion = some payload' ∧ payload'.continues payload = true

theorem Recorded.refl (r : MergeRequestRow) : Recorded r r :=
  fun payload h ↦ ⟨payload, h, payload.continues_self⟩

theorem Recorded.trans {a b c : MergeRequestRow} (hab : Recorded a b) (hbc : Recorded b c) :
    Recorded a c := by
  intro payload h
  obtain ⟨payload', h', hcontinues⟩ := hab payload h
  obtain ⟨payload'', h'', hcontinues'⟩ := hbc payload' h'
  exact ⟨payload'', h'', CompletionPayload.continues_trans hcontinues' hcontinues⟩

/-- An item with a frozen outcome shows the outcome of its row. -/
def QueueWorld.Agreed (w : QueueWorld) : Prop :=
  ∀ item ∈ w.items, ∀ saved, item.pendingCompletion = some saved →
    ∀ r ∈ w.db.mergeRequests.rows, r.id = item.queueId →
      ∃ payload, r.pendingCompletion = some payload ∧ payload.continues saved = true

section Frozen

variable {w : QueueWorld} {call : Call}

/-- Progress is saved with the outcome that was frozen. -/
theorem recorded_of_rowChange (hagreed : w.Agreed) (hpermitted : call.permitted w = true)
    {r r' : MergeRequestRow} (hr : r ∈ w.db.mergeRequests.rows)
    (h : call.op.RowChange call.now r r') : Recorded r r' := by
  intro payload hpayload
  rcases QueueOp.pendingCompletion_of_rowChange h with
    hsame | ⟨projectId, progress, hop, -, hprogress⟩ | ⟨_, _, _, -, hnone, -⟩
  · exact ⟨payload, hsame.trans hpayload, payload.continues_self⟩
  · refine ⟨progress, hprogress, ?_⟩
    simp only [Call.permitted, hop, List.any_eq_true, Bool.and_eq_true, decide_eq_true_eq]
      at hpermitted
    obtain ⟨item, hitem, hid, hcarries⟩ := hpermitted
    obtain ⟨saved, hsaved, hcontinues⟩ := (Option.any_eq_true _ _).mp hcarries
    obtain ⟨own, hown, hagrees⟩ := hagreed item hitem saved hsaved r hr hid.symm
    cases hpayload.symm.trans hown
    exact CompletionPayload.continues_trans hcontinues (CompletionPayload.continues_symm hagrees)
  · cases hnone.symm.trans hpayload

theorem QueueWorld.Agreed.apply (h : w.Agreed) (hsound : w.Sound)
    (hpermitted : call.permitted w = true) : (call.apply w).Agreed := by
  rw [Call.apply]
  cases hexec : call.op.exec call.qm call.now call.tokens w.db with
  | error e => exact h
  | ok result =>
      obtain ⟨answer, db'⟩ := result
      intro item hitem saved hsaved r' hr' hid
      rcases List.mem_append.mp hitem with hold | hnew
      · have hlt : Keyed.rowId r' < w.db.mergeRequests.nextId :=
          hid.trans_lt (hsound.below item hold)
        obtain ⟨r, hr, hid', -, hchange⟩ := (exec_evolves hexec).of_rowId_lt hr' hlt
        obtain ⟨payload, hpayload, hcontinues⟩ :=
          h item hold saved hsaved r hr (hid'.symm.trans hid)
        obtain ⟨payload', hpayload', hcontinues'⟩ :=
          recorded_of_rowChange h hpermitted hr hchange payload hpayload
        exact ⟨payload', hpayload', CompletionPayload.continues_trans hcontinues' hcontinues⟩
      · obtain ⟨r, hr, hshows⟩ := exec_items hexec hnew
        obtain rfl := db'.mergeRequests.eq_of_rowId_eq hr' hr (hid.trans hshows.queueId)
        exact ⟨saved, hshows.pendingCompletion.symm.trans hsaved, saved.continues_self⟩

theorem QueueWorld.Agreed.run {calls : List Call} (h : w.Agreed) (hsound : w.Sound)
    (hcalls : Permitted calls w) : (run calls w).Agreed := by
  induction calls generalizing w with
  | nil => exact h
  | cons call calls ih =>
      exact ih (h.apply hsound hcalls.1) (hsound.apply hcalls.1) hcalls.2

theorem agreed_run {calls : List Call} (hcalls : Permitted calls .empty) :
    (run calls .empty).Agreed := by
  refine QueueWorld.Agreed.run (fun item hitem ↦ ?_) QueueWorld.sound_empty hcalls
  cases hitem

/-- A row that is merged or failed carries its outcome, and one that carries an outcome is in
the state of it, or was taken out of the queue by a sync. -/
structure MergeRequestRow.Coherent (r : MergeRequestRow) : Prop where
  carried : r.status = .merged ∨ r.status = .failed → r.pendingCompletion.isSome = true
  state : ∀ payload, r.pendingCompletion = some payload →
    r.status = payload.request.state ∨ r.status = .removed

/-- What a call makes of the status and of the outcome of a row. -/
theorem status_of_rowChange {now : ℤ} {op : QueueOp} {r r' : MergeRequestRow}
    (h : op.RowChange now r r') :
    (r'.status = r.status ∧ (r.pendingCompletion = none → r'.pendingCompletion = none)) ∨
    (r'.status = .removed ∧ r'.pendingCompletion = r.pendingCompletion) ∨
    (∃ projectId mrIid state extra, op = .updateMrState projectId mrIid state extra ∧
      r'.status = state ∧ r'.pendingCompletion = none) ∨
    ∃ projectId mrIid request, op = .prepareCompletion projectId mrIid request ∧
      r' = preparedRow request now r := by
  cases op with
  | removeFromQueue projectId mrIid =>
      rcases h with rfl | ⟨-, -, rfl⟩
      · exact Or.inl ⟨rfl, id⟩
      · exact Or.inr (Or.inl ⟨rfl, rfl⟩)
  | updateMrState projectId mrIid state extra =>
      rcases h with rfl | ⟨-, -, hnone, rfl⟩
      · exact Or.inl ⟨rfl, id⟩
      · exact Or.inr (Or.inr (Or.inl ⟨projectId, mrIid, state, extra, rfl, rfl, hnone⟩))
  | prepareCompletion projectId mrIid request =>
      rcases h with rfl | ⟨-, -, -, -, rfl⟩
      · exact Or.inl ⟨rfl, id⟩
      · exact Or.inr (Or.inr (Or.inr ⟨projectId, mrIid, request, rfl, rfl⟩))
  | saveCompletionProgress =>
      rcases h with rfl | ⟨-, -, hsome, rfl⟩
      · exact Or.inl ⟨rfl, id⟩
      · refine Or.inl ⟨rfl, fun hnone ↦ ?_⟩
        rw [hnone] at hsome
        cases hsome
  | markStaleWarningSent =>
      rcases h with rfl | ⟨-, -, rfl⟩ <;> exact Or.inl ⟨rfl, id⟩
  | deferRequeue | cancelRequeue =>
      rcases h with rfl | ⟨-, _, _, -, rfl⟩ <;> exact Or.inl ⟨rfl, id⟩
  | refreshRequeueLabels =>
      rcases h with rfl | ⟨-, _, _, -, -, rfl⟩ <;> exact Or.inl ⟨rfl, id⟩
  | clearPendingNotification | stageCompletionPositions =>
      obtain ⟨note, rfl⟩ := h
      exact Or.inl ⟨rfl, id⟩
  | finalizeCompletion =>
      obtain ⟨note, ignored, rfl⟩ := h
      exact Or.inl ⟨rfl, id⟩
  | updateHotfixStatus | activatePriorities =>
      obtain ⟨_, _, _, _, _, _, rfl, -⟩ := h
      exact Or.inl ⟨rfl, id⟩
  | addToQueue | getQueueItem | getActiveQueue | getPendingCompletions | getStaleMrs | getMrState
  | completeMr | cleanupOldEntries =>
      cases h
      exact Or.inl ⟨rfl, id⟩

theorem MergeRequestRow.Coherent.rowChange {qm : QueueManager} {r r' : MergeRequestRow}
    (hcoherent : r.Coherent) (htask : call.OfTask qm) (hrecorded : Recorded r r')
    (h : call.op.RowChange call.now r r') : r'.Coherent := by
  rcases status_of_rowChange h with
    ⟨hstatus, hnone⟩ | ⟨hremoved, -⟩ | ⟨projectId, mrIid, state, extra, hop, hstate, hnone⟩ |
      ⟨projectId, mrIid, request, -, rfl⟩
  · refine ⟨fun hended ↦ ?_, fun payload' hpayload' ↦ ?_⟩
    · rw [hstatus] at hended
      obtain ⟨payload, hpayload⟩ := Option.isSome_iff_exists.mp (hcoherent.carried hended)
      obtain ⟨payload', hpayload', -⟩ := hrecorded payload hpayload
      exact Option.isSome_iff_exists.mpr ⟨payload', hpayload'⟩
    · cases hpayload : r.pendingCompletion with
      | none => cases (hnone hpayload).symm.trans hpayload'
      | some payload =>
          obtain ⟨saved, hsaved, hcontinues⟩ := hrecorded payload hpayload
          cases hpayload'.symm.trans hsaved
          rw [hstatus, CompletionPayload.request_of_continues hcontinues]
          exact hcoherent.state payload hpayload
  · refine ⟨fun hended ↦ ?_, fun _ _ ↦ Or.inr hremoved⟩
    rw [hremoved] at hended
    rcases hended with hended | hended <;> cases hended
  · obtain ⟨-, project, hproper⟩ := htask
    rw [hop] at hproper
    have hactive : state.active = true := hproper.2
    refine ⟨fun hended ↦ ?_, fun payload hpayload ↦ ?_⟩
    · rw [hstate] at hended
      rcases hended with rfl | rfl <;> cases hactive
    · cases hnone.symm.trans hpayload
  · refine ⟨fun _ ↦ rfl, fun payload hpayload ↦ ?_⟩
    cases hpayload
    exact Or.inl rfl

theorem coherent_of_fresh {r : MergeRequestRow} (h : Fresh r) : r.Coherent := by
  obtain ⟨params, isHotfix, isAutomated, queuedAt, note, ignored, h⟩ := h
  rw [h]
  refine ⟨fun hended ↦ ?_, fun payload hpayload ↦ ?_⟩
  · rcases hended with hended | hended <;> cases hended
  · cases hpayload

/-- What one call of a task makes of the rows. -/
theorem evolves_of_call {qm : QueueManager} (hagreed : w.Agreed)
    (hpermitted : call.permitted w = true) (htask : call.OfTask qm) {answer : call.op.Answer}
    {db' : Database}
    (hexec : call.op.exec call.qm call.now call.tokens w.db = .ok (answer, db')) :
    KeyedTable.Evolves (fun r r' ↦ Recorded r r' ∧ (r.Coherent → r'.Coherent))
      MergeRequestRow.Coherent w.db.mergeRequests db'.mergeRequests := by
  have hevolves := exec_evolves hexec
  refine ⟨hevolves.nextId_le, fun r' hr' ↦ ?_⟩
  rcases hevolves.source r' hr' with ⟨r, hr, hid, hkey, hchange⟩ | ⟨hfresh, hnew⟩
  · have hrecorded := recorded_of_rowChange hagreed hpermitted hr hchange
    exact Or.inl ⟨r, hr, hid, hkey, hrecorded, fun hcoherent ↦
      hcoherent.rowChange htask hrecorded hchange⟩
  · exact Or.inr ⟨hfresh, coherent_of_fresh hnew⟩

end Frozen

/-! ## What the queue remembers -/

/-- The merge request has a row, or is recorded in the history. -/
def Database.Knows (db : Database) (mrKey : MrKey) : Prop :=
  (∃ r ∈ db.mergeRequests.rows, Keyed.key r = mrKey) ∨
  ∃ h ∈ db.history.rows, Keyed.key h = mrKey

/-- The history is kept, and so is the knowledge of each merge request. -/
structure Database.Remembers (db db' : Database) : Prop where
  history : db.history.rows ⊆ db'.history.rows
  knows (mrKey : MrKey) : db.Knows mrKey → db'.Knows mrKey

theorem Database.Remembers.refl (db : Database) : db.Remembers db where
  history := List.Subset.refl _
  knows _ h := h

theorem Database.Remembers.trans {db db' db'' : Database} (h : db.Remembers db')
    (h' : db'.Remembers db'') : db.Remembers db'' where
  history := List.Subset.trans h.history h'.history
  knows mrKey hknows := h'.knows mrKey (h.knows mrKey hknows)

theorem exists_key_insertMr (db : Database) (params : RequeueParams) (isHotfix isAutomated : Bool)
    (queuedAt : ℤ) :
    ∃ r ∈ (insertMr db params isHotfix isAutomated queuedAt).mergeRequests.rows,
      Keyed.key r = (params.projectId, params.iid) := by
  apply KeyedTable.exists_key_insertOrIgnore
  exact fun _ ↦ rfl

/-- What is added to the queue has a row afterwards. -/
theorem exists_key_addToQueue {qm : QueueManager} {projectId : ℕ} {mr : MergeRequest}
    {isHotfix : Bool} {now : ℤ} {db db' : Database} {item : Option QueueItem}
    (h : qm.addToQueue projectId mr isHotfix now db = .ok (item, db')) :
    ∃ r ∈ db'.mergeRequests.rows, Keyed.key r = (projectId, mr.iid) := by
  unfold QueueManager.addToQueue at h
  obtain ⟨⟨hotfix, automated⟩, -, h⟩ := bind_eq_ok.mp h
  cases h
  cases hstale : (db.row projectId mr.iid).any
      fun row ↦ row.status.terminal && row.pendingCompletion.isNone with
  | true =>
      simp only [Bool.true_or, if_true]
      apply exists_key_insertMr
  | false =>
      simp only [Bool.false_or, Bool.false_eq_true, if_false]
      cases hexisting : db.row projectId mr.iid with
      | none =>
          simp only [Option.isNone_none, if_true]
          apply exists_key_insertMr
      | some r =>
          simp only [Option.isNone_some, Bool.false_eq_true, if_false]
          exact ⟨r, KeyedTable.byKey_eq_some_iff.mp hexisting⟩

section Known

variable {w : QueueWorld} {call : Call} {qm : QueueManager}

/-- A row that leaves is replaced, or its merge request is recorded. -/
theorem knows_of_deletes (htracked : Tracked w) (htask : call.OfTask qm)
    {answer : call.op.Answer} {db' : Database}
    (hexec : call.op.exec call.qm call.now call.tokens w.db = .ok (answer, db'))
    {r : MergeRequestRow} (hr : r ∈ w.db.mergeRequests.rows) (hdeletes : call.op.Deletes r)
    (hgone : ¬ db'.mergeRequests.HasId r.id) : db'.Knows (Keyed.key r) := by
  obtain ⟨-, project, hproper⟩ := htask
  obtain ⟨own, now, tokens, op⟩ := call
  cases op with
  | addToQueue projectId mr isHotfix =>
      obtain ⟨hproject, hiid, -⟩ := hdeletes
      obtain ⟨r', hr', hkey⟩ := exists_key_addToQueue hexec
      refine Or.inl ⟨r', hr', hkey.trans ?_⟩
      rw [← hproject, ← hiid]
      rfl
  | finalizeCompletion projectId item payload =>
      cases answer with
      | true =>
          have hkey := (htracked.owned r hr payload hdeletes.2.2).2
          obtain ⟨h, hh, hrecorded⟩ := Recovery.mrKey_insertHistory w.db payload.history
          rw [← (finalizeCompletion_done hexec).2.1] at hh
          exact Or.inr ⟨h, hh, hrecorded.trans hkey⟩
      | false =>
          rcases finalizeCompletion_eq_ok hexec with ⟨-, rfl⟩ | ⟨htrue, -⟩
          · exact absurd ⟨r, hr, rfl⟩ hgone
          · cases htrue
  | completeMr projectId mrIid outcome expectedQueueId =>
      rcases completeMr_eq (Except.ok.inj hexec) with rfl | ⟨hit, row, rfl, hfind, rfl⟩
      · exact absurd ⟨r, hr, rfl⟩ hgone
      · have hhit := List.find?_some hfind
        simp only [Bool.and_eq_true, decide_eq_true_eq] at hhit
        have hkey : Keyed.key row = Keyed.key r := by
          change (row.projectId, row.iid) = (r.projectId, r.iid)
          rw [hhit.1.1.1, hhit.1.1.2, hdeletes.1, hdeletes.2.1]
        obtain ⟨h, hh, hrecorded⟩ :=
          Recovery.mrKey_insertHistory w.db (historyParams (rowToQueueItem row) outcome now)
        exact Or.inr ⟨h, hh, hrecorded.trans hkey⟩
  | cleanupOldEntries => cases hproper
  | _ => cases hdeletes

/-- What is recorded stays recorded. -/
theorem history_subset_of_call (htracked : Tracked w) {answer : call.op.Answer} {db' : Database}
    (hexec : call.op.exec call.qm call.now call.tokens w.db = .ok (answer, db')) :
    w.db.history.rows ⊆ db'.history.rows := by
  have happly : (call.apply w).db = db' := by rw [Call.apply, hexec]
  rw [← happly]
  rcases htracked.history_apply call with ⟨-, -, hsame⟩ | ⟨values, -, -, hinsert⟩
  · rw [hsame]
    exact List.Subset.refl _
  · rw [hinsert]
    intro h hh
    exact KeyedTable.mem_insertOrIgnore_of_mem hh

/-- Whatever a task asks of the database, it remembers what it knew. -/
theorem remembers_of_call (htracked : Tracked w) (htask : call.OfTask qm)
    {answer : call.op.Answer} {db' : Database}
    (hexec : call.op.exec call.qm call.now call.tokens w.db = .ok (answer, db')) :
    w.db.Remembers db' where
  history := history_subset_of_call htracked hexec
  knows mrKey h := by
    rcases h with ⟨r, hr, rfl⟩ | ⟨h, hh, hkey⟩
    · by_cases hgone : db'.mergeRequests.HasId r.id
      · obtain ⟨r', hr', hid⟩ := hgone
        have hlt : Keyed.rowId r' < w.db.mergeRequests.nextId :=
          hid.trans_lt (w.db.mergeRequests.below r hr)
        obtain ⟨r₀, hr₀, hid₀, hkey, -⟩ := (exec_evolves hexec).of_rowId_lt hr' hlt
        obtain rfl := w.db.mergeRequests.eq_of_rowId_eq hr₀ hr (hid₀.symm.trans hid)
        exact Or.inl ⟨r', hr', hkey⟩
      · refine knows_of_deletes htracked htask hexec hr ?_ hgone
        by_contra hkeep
        exact hgone (exec_hasId hexec (.of_mem hr hkeep))
    · exact Or.inr ⟨h, history_subset_of_call htracked hexec hh, hkey⟩

end Known

theorem active_of_built {request : CompletionRequest} (h : request.Built) :
    request.state.active = false := by
  cases h <;> rfl

/-! ## Every run of the bot -/

section Bot

variable {qm : QueueManager}

/-- What the calls of tasks relate, an event of a run relates. -/
theorem relates_of_event {R : Database → Database → Prop} (hrefl : ∀ db, R db db)
    (hcall : ∀ (calls : List Call) (call : Call) (answer : call.op.Answer) (db' : Database),
      Permitted calls .empty → call.permitted (run calls .empty) = true → call.OfTask qm →
      call.op.exec call.qm call.now call.tokens (run calls .empty).db = .ok (answer, db') →
      R (run calls .empty).db db')
    {moves : List (Move (botSystem qm))} {e : Event (botSystem qm)}
    (he : e ∈ (firstStart qm).events moves) : R (World.db e.before) (World.db e.after) := by
  obtain ⟨given, calls, choice, hfollows, hproper, hexec⟩ := exists_calls_of_event he
  rcases World.exec_db_cases hexec with hsame | ⟨q, a, hop, hdone⟩
  · rw [hsame]
    exact hrefl _
  · rw [hop] at hproper
    let call : Call := { qm, now := choice.now, tokens := choice.tokens, op := q }
    have hpermitted : call.permitted (run calls .empty) = true :=
      permitted_of_proper hfollows.items hproper
    have htask : call.OfTask qm := ⟨rfl, _, QueueOp.Proper.forget hproper⟩
    rw [← hfollows.db] at hdone ⊢
    exact hcall calls call a _ hfollows.permitted hpermitted htask hdone

/-- What events relate, a run relates: starts and crashes leave the database alone. -/
theorem relates_of_run {R : Database → Database → Prop} (hrefl : ∀ db, R db db)
    (htrans : ∀ db db' db'', R db db' → R db' db'' → R db db'')
    (hevent : ∀ (moves : List (Move (botSystem qm))) (e : Event (botSystem qm)),
      e ∈ (firstStart qm).events moves → R (World.db e.before) (World.db e.after))
    (moves later : List (Move (botSystem qm))) :
    R (World.db ((firstStart qm).run moves).world)
      (World.db (((firstStart qm).run moves).run later).world) := by
  refine Config.run_relates (S := botSystem qm) (R := fun w w' : World ↦ R w.db w'.db)
    (fun _ ↦ hrefl _) (fun _ _ _ h h' ↦ htrans _ _ _ h h') (fun _ _ ↦ hrefl _)
    (fun _ ↦ hrefl _) fun e he ↦ ?_
  have hmem : e ∈ (firstStart qm).events (moves ++ later) := by
    rw [Config.events_append]
    exact List.mem_append_right _ he
  exact hevent (moves ++ later) e hmem

/-- What one step of a task makes of the rows. -/
theorem evolves_of_event {moves : List (Move (botSystem qm))} {e : Event (botSystem qm)}
    (he : e ∈ (firstStart qm).events moves) :
    KeyedTable.Evolves (fun r r' ↦ Recorded r r' ∧ (r.Coherent → r'.Coherent))
      MergeRequestRow.Coherent (World.db e.before).mergeRequests
      (World.db e.after).mergeRequests := by
  refine relates_of_event (R := fun db db' ↦
    KeyedTable.Evolves (fun r r' ↦ Recorded r r' ∧ (r.Coherent → r'.Coherent))
      MergeRequestRow.Coherent db.mergeRequests db'.mergeRequests) ?_ ?_ he
  · exact fun _ ↦ KeyedTable.Evolves.refl fun r ↦ ⟨Recorded.refl r, id⟩
  · intro calls call answer db' hcalls hpermitted htask hexec
    exact evolves_of_call (agreed_run hcalls) hpermitted htask hexec

/-- What a run makes of the rows. -/
theorem evolves_of_run (moves later : List (Move (botSystem qm))) :
    KeyedTable.Evolves (fun r r' ↦ Recorded r r' ∧ (r.Coherent → r'.Coherent))
      MergeRequestRow.Coherent (World.db ((firstStart qm).run moves).world).mergeRequests
      (World.db (((firstStart qm).run moves).run later).world).mergeRequests := by
  refine relates_of_run (R := fun db db' ↦
    KeyedTable.Evolves (fun r r' ↦ Recorded r r' ∧ (r.Coherent → r'.Coherent))
      MergeRequestRow.Coherent db.mergeRequests db'.mergeRequests) ?_ ?_ ?_ moves later
  · exact fun _ ↦ KeyedTable.Evolves.refl fun r ↦ ⟨Recorded.refl r, id⟩
  · intro _ _ _ h h'
    exact h.comp h' (fun _ _ _ h h' ↦ ⟨h.1.trans h'.1, fun hc ↦ h'.2 (h.2 hc)⟩)
      (fun _ _ hc h ↦ h.2 hc) fun _ h ↦ h
  · exact fun _ _ he ↦ evolves_of_event he

theorem coherent_run (moves : List (Move (botSystem qm))) :
    ∀ r ∈ (World.db ((firstStart qm).run moves).world).mergeRequests.rows, r.Coherent := by
  refine (evolves_of_run [] moves).forall_rows (fun r hr ↦ ?_)
    (fun r _ r' _ _ h hc ↦ h.2 hc) fun _ _ h ↦ h
  cases hr

/-- A merged or failed row carries its outcome.  Once a row carries an outcome, it carries this
one for good, and never comes back to life: it stays in the state of the outcome, or is taken
out of the queue. -/
theorem ended_rows_stay_ended (qm : QueueManager) (moves later : List (Move (botSystem qm))) :
    let db := World.db ((firstStart qm).run moves).world
    let db' := World.db (((firstStart qm).run moves).run later).world
    (∀ r ∈ db.mergeRequests.rows, r.status = .merged ∨ r.status = .failed →
      r.pendingCompletion.isSome = true) ∧
    ∀ r ∈ db.mergeRequests.rows, ∀ payload, r.pendingCompletion = some payload →
      ∀ r' ∈ db'.mergeRequests.rows, r'.id = r.id →
        (∃ payload', r'.pendingCompletion = some payload' ∧ payload'.continues payload = true) ∧
        (r'.status = payload.request.state ∨ r'.status = .removed) ∧ r'.status.active = false := by
  intro db db'
  refine ⟨fun r hr ↦ (coherent_run moves r hr).carried, fun r hr payload hpayload r' hr' hid ↦ ?_⟩
  obtain ⟨payload', hpayload', hcontinues⟩ :=
    ((evolves_of_run moves later).of_rowId_eq hr hr' hid).1 payload hpayload
  have hcoherent : r'.Coherent := by
    refine coherent_run (moves ++ later) r' ?_
    rw [Config.run_append]
    exact hr'
  have hstate := hcoherent.state payload' hpayload'
  rw [CompletionPayload.request_of_continues hcontinues] at hstate
  refine ⟨⟨payload', hpayload', hcontinues⟩, hstate, ?_⟩
  obtain ⟨calls, -, hfollows⟩ := exists_calls moves
  have hbuilt : payload.request.Built :=
    (builtRequests_empty.run hfollows.permitted hfollows.freezesBuilt).rows r
      (hfollows.db.symm ▸ hr) payload hpayload
  rcases hstate with hstate | hstate
  · rw [hstate]
    exact active_of_built hbuilt
  · rw [hstate]
    rfl

/-- After a crash at any moment, a recovery that nobody disturbs finishes what the tasks of its
project left behind: it archives every pending completion whose saved request can be carried
out, and gives back every lock. -/
theorem crash_is_recovered (qm : QueueManager) (moves : List (Move (botSystem qm)))
    (settings : Settings) (s : Local) (log : List Op) :
    let w : World := ((firstStart qm).run (moves ++ [.crash])).world
    Interleave.Program.Finishes (alone { settings with qm })
      (QueueCompletion.recoverAll { settings with qm }) s log w fun result s' _ w' ↦
      result = .ok (!(getPendingCompletions settings.gitlabProjectId w.db).isEmpty) ∧ s' = s ∧
      w'.locks = [] ∧
      (∀ r ∈ w.db.mergeRequests.rows, r.projectId = settings.gitlabProjectId →
        r.pendingCompletion.isSome = true →
          Recovery.Admissible { settings with qm } r.requeueRequest →
            ¬ w'.db.mergeRequests.HasId r.id ∧
              ∃ h ∈ w'.db.history.rows, h.values.mrKey = (r.projectId, r.iid)) ∧
      ∀ r ∈ w'.db.mergeRequests.rows, r.projectId = settings.gitlabProjectId →
        r.pendingCompletion.isSome = true →
          ¬ Recovery.Admissible { settings with qm } r.requeueRequest ∧
            ∃ r₀ ∈ w.db.mergeRequests.rows, r₀.id = r.id ∧ r₀.pendingCompletion.isSome = true ∧
              r₀.requeueRequest = r.requeueRequest := by
  intro w
  obtain ⟨calls, -, hfollows⟩ := exists_calls (moves ++ [.crash])
  refine Recovery.recoverAll_finishes_pending hfollows.permitted hfollows.freezesBuilt
    { settings with qm } s log hfollows.db.symm ?_
  change World.locks ((firstStart qm).run (moves ++ [.crash])).world = []
  rw [Config.run_append]
  rfl

/-! ### What is told -/

/-- Only `prepare_completion` freezes an outcome. -/
theorem frozen_of_rowChange {now : ℤ} {op : QueueOp} {r r' : MergeRequestRow}
    {payload : CompletionPayload} (h : op.RowChange now r r') (hnone : r.pendingCompletion = none)
    (hpayload : r'.pendingCompletion = some payload) :
    ∃ projectId mrIid request, op = .prepareCompletion projectId mrIid request ∧
      payload = completionPayload (rowToQueueItem r) request now := by
  rcases status_of_rowChange h with
    ⟨-, hsame⟩ | ⟨-, hsame⟩ | ⟨_, _, _, _, -, -, hopen⟩ | ⟨projectId, mrIid, request, hop, rfl⟩
  · cases (hsame hnone).symm.trans hpayload
  · cases (hsame.trans hnone).symm.trans hpayload
  · cases hopen.symm.trans hpayload
  · exact ⟨projectId, mrIid, request, hop, (Option.some.inj hpayload).symm⟩

/-- What tasks have learnt by the events. -/
def learntBy (events : List (Event (botSystem qm))) : Learnt where
  items item := item ∈ givenBy events
  comments projectId mrIid body :=
    ∃ e ∈ events, BotTask.project e.entry = projectId ∧ Op.Posts mrIid body e.op e.answer

/-- GitLab took the comments that are saved as sent. -/
def Database.Told (given : Learnt) (db : Database) : Prop :=
  ∀ r ∈ db.mergeRequests.rows, ∀ payload, r.pendingCompletion = some payload →
    payload.commentSent = true → given.comments r.projectId r.iid payload.comment

/-- Nothing is forgotten. -/
structure Learnt.Grows (given given' : Learnt) : Prop where
  items : ∀ item, given.items item → given'.items item
  comments : ∀ projectId mrIid body, given.comments projectId mrIid body →
    given'.comments projectId mrIid body

theorem learntBy_grows {events events' : List (Event (botSystem qm))} (h : events ⊆ events') :
    (learntBy events).Grows (learntBy events') where
  items _ hitem := by
    obtain ⟨e, he, hmem⟩ := List.mem_flatMap.mp hitem
    exact List.mem_flatMap.mpr ⟨e, h he, hmem⟩
  comments _ _ _ hposted := by
    obtain ⟨e, he, hposts⟩ := hposted
    exact ⟨e, h he, hposts⟩

section Told

variable {given given' : Learnt} {db : Database}

theorem Database.Told.grows (h : db.Told given) (hgrows : given.Grows given') : db.Told given' :=
  fun r hr payload hpayload hsent ↦ hgrows.comments _ _ _ (h r hr payload hpayload hsent)

theorem Op.Gives.grows {projectId : ℕ} {op : Op} {answer : Except PyError op.Answer}
    (h : op.Gives projectId given answer) (hgrows : given.Grows given') :
    op.Gives projectId given' answer where
  items item hitem := by
    obtain ⟨hof, hlearnt, htold⟩ := h.items item hitem
    exact ⟨hof, hgrows.items item hlearnt, fun payload hpayload hsent ↦
      hgrows.comments _ _ _ (htold payload hpayload hsent)⟩
  comments mrIid body hposts := hgrows.comments _ _ _ (h.comments mrIid body hposts)

/-- Only progress that is saved says that a comment was sent, and it is proper. -/
theorem Database.Told.exec {qm : QueueManager} {now : ℤ} {tokens : ℕ → Uuid} {op : QueueOp}
    {projectId : ℕ} {answer : op.Answer} {db' : Database} (h : db.Told given)
    (hshown : ∀ item, given.items item → ∀ r ∈ db.mergeRequests.rows, r.id = item.queueId →
      r.iid = item.mrIid)
    (hop : op.Proper projectId given) (hexec : op.exec qm now tokens db = .ok (answer, db')) :
    db'.Told given := by
  intro r' hr' payload' hpayload' hsent
  rcases (exec_evolves hexec).source r' hr' with ⟨r, hr, -, hkey, hchange⟩ | ⟨-, hfresh⟩
  · simp only [key_mergeRequestRow, Prod.mk.injEq] at hkey
    rcases QueueOp.pendingCompletion_of_rowChange hchange with
      hsame | ⟨project, progress, rfl, -, hprogress⟩ | ⟨_, _, _, -, hnone, -⟩
    · rw [hkey.1, hkey.2]
      exact h r hr payload' (hsame.symm.trans hpayload') hsent
    · cases hpayload'.symm.trans hprogress
      obtain ⟨rfl, hheld⟩ := hop
      obtain ⟨item, hitem, hid, hposted⟩ := hheld.told hsent
      rcases hchange with rfl | ⟨hproject, -, -, rfl⟩
      · exact h r' hr payload' hpayload' hsent
      · rwa [hproject, hshown item hitem r hr hid.symm]
    · obtain ⟨_, _, _, -, rfl⟩ := frozen_of_rowChange hchange hnone hpayload'
      cases hsent
  · cases (pendingCompletion_of_fresh hfresh).symm.trans hpayload'

end Told

/-- An item that a step shows is one of the rows after it. -/
theorem shows_of_exec {thread : ℕ} {choice : Choice} {op : Op} {w w' : World}
    {answer : Except PyError op.Answer} (h : World.exec qm thread choice op w = some (answer, w'))
    {item : QueueItem} (hitem : item ∈ op.items answer) :
    ∃ r ∈ w'.db.mergeRequests.rows, QueueOp.Shows item r := by
  cases op with
  | db q =>
      rcases (World.exec_db h).2.2 with ⟨-, e, rfl⟩ | ⟨a, hexec, rfl | ⟨e, rfl⟩⟩
      · cases hitem
      · exact exec_items hexec hitem
      · cases hitem
  | _ => cases hitem

/-- What a step shows is learnt. -/
theorem gives_of_event {moves : List (Move (botSystem qm))} {e : Event (botSystem qm)}
    (he : e ∈ (firstStart qm).events moves)
    (htold : (World.db e.after).Told (learntBy ((firstStart qm).events moves))) :
    Op.Gives (BotTask.project e.entry) (learntBy ((firstStart qm).events moves)) e.op
      e.answer where
  items item hitem := by
    have hterms := (firstStart_inOrder qm).terms_of_mem_events (botPlan_sound qm) he
    have hof := (Op.Gives.tells hterms.2.1).items item hitem
    refine ⟨hof, List.mem_flatMap.mpr ⟨e, he, hitem⟩, fun payload hpayload hsent ↦ ?_⟩
    obtain ⟨_, _, _, -, -, hexec⟩ := exists_calls_of_event he
    obtain ⟨r, hr, hshows⟩ := shows_of_exec hexec hitem
    rw [← hof.project, hshows.projectId, hshows.mrIid]
    exact htold r hr payload (hshows.pendingCompletion.symm.trans hpayload) hsent
  comments mrIid body hposts := ⟨e, he, rfl, hposts⟩

/-- The items that tasks were given show merge requests that keep their rows. -/
theorem shown_of_given (moves : List (Move (botSystem qm))) {item : QueueItem}
    (hitem : item ∈ givenBy ((firstStart qm).events moves)) {r : MergeRequestRow}
    (hr : r ∈ (World.db ((firstStart qm).run moves).world).mergeRequests.rows)
    (hid : r.id = item.queueId) : r.iid = item.mrIid := by
  obtain ⟨calls, -, hfollows⟩ := exists_calls moves
  have hsound := QueueWorld.sound_empty.run hfollows.permitted
  exact (hsound.shown item (hfollows.items item hitem) r (hfollows.db.symm ▸ hr) hid).2

/-- In every run, GitLab took the comments that rows and items say were sent. -/
theorem told_run (moves : List (Move (botSystem qm))) :
    (World.db ((firstStart qm).run moves).world).Told (learntBy ((firstStart qm).events moves)) ∧
    ∀ e ∈ (firstStart qm).events moves,
      Op.Gives (BotTask.project e.entry) (learntBy ((firstStart qm).events moves)) e.op
        e.answer := by
  induction moves using List.reverseRecOn with
  | nil => exact ⟨fun r hr ↦ (by cases hr), fun e he ↦ absurd he List.not_mem_nil⟩
  | append_singleton moves move ih =>
      obtain ⟨htold, hgives⟩ := ih
      have hgrows : (learntBy ((firstStart qm).events moves)).Grows
          (learntBy ((firstStart qm).events (moves ++ [move]))) := by
        rw [Config.events_append]
        exact learntBy_grows (List.subset_append_left _ _)
      cases hevent : ((firstStart qm).run moves).event move with
      | none =>
          have hevents : (firstStart qm).events (moves ++ [move]) =
              (firstStart qm).events moves := by
            simp [Config.events_append, hevent]
          have hdb : World.db ((firstStart qm).run (moves ++ [move])).world =
              World.db ((firstStart qm).run moves).world := by
            rw [Config.run_append]
            rcases Config.apply_of_event_eq_none hevent with ⟨entry, h⟩ | h | h <;>
              rw [Config.run_cons, Config.run_nil, h] <;> rfl
          rw [hevents, hdb]
          exact ⟨htold, hgives⟩
      | some e =>
          obtain ⟨choice, next, -, hexec, hbefore, happly⟩ := Config.exists_of_event hevent
          have hmem : e ∈ (firstStart qm).events (moves ++ [move]) := by
            rw [Config.events_append]
            exact List.mem_append_right _ (by simp [hevent])
          have hafter : (World.db e.after).Told (learntBy ((firstStart qm).events moves)) := by
            rcases World.exec_db_cases (World.exec_of_serve hexec) with hsame | ⟨q, a, hop, hdone⟩
            · rw [hsame]
              exact htold
            · have hproper := proper_of_gives hgives hevent
              rw [hop] at hproper
              exact htold.exec (fun item hitem r hr ↦ shown_of_given moves hitem hr) hproper hdone
          rw [Config.run_append, Config.run_cons, Config.run_nil, happly]
          refine ⟨hafter.grows hgrows, fun other hother ↦ ?_⟩
          rw [Config.events_append] at hother
          rcases List.mem_append.mp hother with hother | hother
          · exact (hgives other hother).grows hgrows
          · obtain rfl : other = e := by simpa [hevent] using hother
            exact gives_of_event hmem (hafter.grows hgrows)

/-! ### What is archived -/

/-- The step froze, by its own clock, the outcome that the record carries on. -/
def Freezes (e : Event (botSystem qm)) (r : MergeRequestRow) (payload : CompletionPayload) : Prop :=
  ∃ projectId mrIid request choice, e.op = .db (.prepareCompletion projectId mrIid request) ∧
    World.exec qm e.thread choice e.op e.before = some (e.answer, e.after) ∧
    ∃ r₀ ∈ (World.db e.before).mergeRequests.rows, r₀.id = r.id ∧ r₀.pendingCompletion = none ∧
      payload.continues (completionPayload (rowToQueueItem r₀) request choice.now) = true

theorem Freezes.carry {e : Event (botSystem qm)} {r r' : MergeRequestRow}
    {payload payload' : CompletionPayload} (h : Freezes e r payload) (hid : r'.id = r.id)
    (hcontinues : payload'.continues payload = true) : Freezes e r' payload' := by
  obtain ⟨projectId, mrIid, request, choice, hop, hexec, r₀, hr₀, hid₀, hnone, hfirst⟩ := h
  exact ⟨projectId, mrIid, request, choice, hop, hexec, r₀, hr₀, hid₀.trans hid.symm, hnone,
    CompletionPayload.continues_trans hcontinues hfirst⟩

/-- An outcome that a row carries was frozen by one step. -/
theorem exists_freezes (moves : List (Move (botSystem qm))) :
    ∀ r ∈ (World.db ((firstStart qm).run moves).world).mergeRequests.rows,
      ∀ payload, r.pendingCompletion = some payload →
        ∃ e ∈ (firstStart qm).events moves, Freezes e r payload := by
  induction moves using List.reverseRecOn with
  | nil =>
      intro r hr
      cases hr
  | append_singleton moves move ih =>
      rw [Config.run_append, Config.events_append]
      intro r' hr' payload' hpayload'
      have hold (hr : r' ∈ (World.db ((firstStart qm).run moves).world).mergeRequests.rows) :
          ∃ e ∈ (firstStart qm).events moves ++ ((firstStart qm).run moves).events [move],
            Freezes e r' payload' := by
        obtain ⟨e, he, hfreezes⟩ := ih r' hr payload' hpayload'
        exact ⟨e, List.mem_append_left _ he, hfreezes⟩
      cases hevent : ((firstStart qm).run moves).event move with
      | none =>
          refine hold ?_
          rcases Config.apply_of_event_eq_none hevent with ⟨entry, h⟩ | h | h <;>
            rw [Config.run_cons, Config.run_nil, h] at hr' <;> exact hr'
      | some e =>
          obtain ⟨choice, next, -, hexec, hbefore, happly⟩ := Config.exists_of_event hevent
          have he : e ∈ (firstStart qm).events (moves ++ [move]) := by
            rw [Config.events_append]
            exact List.mem_append_right _ (by simp [hevent])
          rw [Config.run_cons, Config.run_nil, happly] at hr'
          rcases World.exec_db_cases (World.exec_of_serve hexec) with hsame | ⟨q, a, hop, hdone⟩
          · exact hold (hsame ▸ hr')
          · rcases (exec_evolves hdone).source r' hr' with ⟨r, hr, hid, -, hchange⟩ | ⟨-, hfresh⟩
            · cases hpayload : r.pendingCompletion with
              | none =>
                  obtain ⟨projectId, mrIid, request, hprepare, rfl⟩ :=
                    frozen_of_rowChange hchange hpayload hpayload'
                  refine ⟨e, List.mem_append_right _ (by simp [hevent]), projectId, mrIid, request,
                    choice, hprepare ▸ hop, ?_, r, ?_, hid.symm, hpayload,
                    CompletionPayload.continues_self _⟩
                  · rw [hbefore]
                    exact World.exec_of_serve hexec
                  · rw [hbefore]
                    exact hr
              | some payload =>
                  obtain ⟨e₀, he₀, hfreezes⟩ := ih r hr payload hpayload
                  have hevolves := evolves_of_event he
                  rw [hbefore] at hevolves
                  obtain ⟨saved, hsaved, hcontinues⟩ :=
                    (hevolves.of_rowId_eq hr hr' hid).1 payload hpayload
                  cases hpayload'.symm.trans hsaved
                  exact ⟨e₀, List.mem_append_left _ he₀, hfreezes.carry hid hcontinues⟩
            · cases (pendingCompletion_of_fresh hfresh).symm.trans hpayload'

/-- Whatever the tasks of all projects do, whatever fails and whenever the process crashes: what
is recorded in the history stays there, and a merge request that was ever queued has a row or is
recorded. -/
theorem merge_requests_never_vanish (qm : QueueManager)
    (moves later : List (Move (botSystem qm))) :
    (World.db ((firstStart qm).run moves).world).Remembers
      (World.db (((firstStart qm).run moves).run later).world) := by
  refine relates_of_run .refl (fun _ _ _ h h' ↦ h.trans h') (fun past e he ↦ ?_) moves later
  refine relates_of_event .refl ?_ he
  intro calls call answer db' hcalls _ htask hexec
  exact remembers_of_call (tracked_empty.run hcalls) htask hexec

end Bot

/-- A merge request is queued, and then somebody merges it. -/
def mergedOutside : List (Move (botSystem {})) :=
  webhookMoves 1 0 (triggerEvent 7 .update .opened) 0 ++
    webhookMoves 1 1 (triggerEvent 7 .merge .merged) 5000000

end MergeQueue
