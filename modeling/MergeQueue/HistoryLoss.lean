import MergeQueue.RequeueTransfer

/-!
# The history of ended lifecycles

The history is unique in the merge request, and an insertion that conflicts is
dropped.  So it keeps every ended lifecycle of a run exactly as long as no merge
request is completed twice.
-/

namespace MergeQueue

open QueueManager QueueOp

/-- The values of the lifecycle that the call ends, if it ends one. -/
def Call.ended (call : Call) (w : QueueWorld) : List HistoryParams :=
  match call.op.exec call.qm call.now call.tokens w.db with
  | .ok (answer, _) => call.op.ends call.now w answer
  | .error _ => []

/-- The worlds of a run, from the first to the last. -/
def moments : List Call → QueueWorld → List QueueWorld
  | [], w => [w]
  | call :: calls, w => w :: moments calls (call.apply w)

/-- The calls of a run, each with the world it is made in. -/
def steps : List Call → QueueWorld → List (QueueWorld × Call)
  | [], _ => []
  | call :: calls, w => (w, call) :: steps calls (call.apply w)

/-- The key of the merge request that a history row is about. -/
def HistoryParams.mrKey (values : HistoryParams) : MrKey := (values.projectId, values.iid)

/-- What `get_mr_state` reports of an archived lifecycle. -/
def HistoryParams.report (values : HistoryParams) : MrStateReport where
  status := .inr values.status
  startedAt := values.startedAt
  lastError := values.failureReason
  finishedAt := some values.finishedAt

/-- Every ended lifecycle has a history row with its own values, each merge request
as many rows as lifecycles, and one that is not queued is reported by its latest. -/
structure KeepsHistory (w : QueueWorld) : Prop where
  own : ∀ values ∈ w.ended, ∃ r ∈ w.db.history.rows, r.values = values
  count : ∀ key : MrKey,
    w.db.history.rows.countP (fun r ↦ r.values.mrKey = key) =
      w.ended.countP fun values ↦ values.mrKey = key
  latest : ∀ projectId mrIid values, w.db.row projectId mrIid = none →
    (w.ended.filter fun v ↦ v.mrKey = (projectId, mrIid)).getLast? = some values →
      QueueManager.getMrState projectId mrIid w.db = some values.report

/-! ## The frozen values -/

/-- A frozen outcome carries the values its row had when it was frozen. -/
structure Tracked (w : QueueWorld) : Prop where
  open_ : ∀ r ∈ w.db.mergeRequests.rows, r.pendingCompletion = none →
    w.frozen.lookup r.id = none
  owned : ∀ r ∈ w.db.mergeRequests.rows, ∀ payload ∈ r.pendingCompletion,
    w.frozen.lookup r.id = some payload.history ∧ payload.history.mrKey = (r.projectId, r.iid)
  below : ∀ entry ∈ w.frozen, entry.1 < w.db.mergeRequests.nextId
  shown : ∀ item ∈ w.items, ∀ payload ∈ item.pendingCompletion,
    w.frozen.lookup item.queueId = some payload.history

theorem tracked_empty : Tracked .empty where
  open_ := by simp [QueueWorld.empty, Database.empty, KeyedTable.empty]
  owned := by simp [QueueWorld.empty, Database.empty, KeyedTable.empty]
  below := by simp [QueueWorld.empty]
  shown := by simp [QueueWorld.empty]

theorem pendingCompletion_of_fresh {r : MergeRequestRow} (h : Fresh r) :
    r.pendingCompletion = none := by
  obtain ⟨params, isHotfix, isAutomated, queuedAt, note, ignored, h⟩ := h
  rw [h]
  rfl

namespace Tracked

variable {w : QueueWorld} {call : Call} {db' : Database}

/-- A call that freezes nothing keeps the frozen values. -/
theorem keep (h : Tracked w) (hpermitted : call.permitted w = true)
    {answer : call.op.Answer}
    (hexec : call.op.exec call.qm call.now call.tokens w.db = .ok (answer, db'))
    (hprepare : ∀ projectId mrIid request, call.op = .prepareCompletion projectId mrIid request →
      db' = w.db) (ended : List HistoryParams) :
    Tracked ⟨db', w.items ++ call.op.items answer, w.frozen, ended⟩ := by
  have hevolves := exec_evolves hexec
  -- A row of the result shows its source, or has the progress of an item of the same row.
  have hsource : ∀ r' ∈ db'.mergeRequests.rows,
      (r'.pendingCompletion = none → w.frozen.lookup r'.id = none) ∧
      ∀ payload ∈ r'.pendingCompletion, w.frozen.lookup r'.id = some payload.history ∧
        payload.history.mrKey = (r'.projectId, r'.iid) := by
    intro r' hr'
    rcases hevolves.source r' hr' with ⟨r, hr, hid, hkey, hchange⟩ | ⟨hfresh, hnew⟩
    · have hsame : r'.pendingCompletion = r.pendingCompletion →
          (r'.pendingCompletion = none → w.frozen.lookup r'.id = none) ∧
          ∀ payload ∈ r'.pendingCompletion, w.frozen.lookup r'.id = some payload.history ∧
            payload.history.mrKey = (r'.projectId, r'.iid) := by
        intro heq
        simp only [rowId_mergeRequestRow, key_mergeRequestRow] at hid hkey
        rw [heq, hid, hkey]
        exact ⟨h.open_ r hr, h.owned r hr⟩
      rcases pendingCompletion_of_rowChange hchange with
        heq | ⟨projectId, payload, hop, hsome, heq⟩ | ⟨projectId, mrIid, request, hop, -, -⟩
      · exact hsame heq
      · obtain ⟨old, hold⟩ := Option.isSome_iff_exists.mp hsome
        obtain ⟨hlookup, hmrKey⟩ := h.owned r hr old hold
        have hpayload : payload.history = old.history := by
          simp only [Call.permitted, hop, List.any_eq_true, Bool.and_eq_true,
            decide_eq_true_eq] at hpermitted
          obtain ⟨item, hitem, hqueueId, hcontinues⟩ := hpermitted
          obtain ⟨saved, hsaved, hcontinues⟩ := (Option.any_eq_true _ _).mp hcontinues
          have hshown := h.shown item hitem saved hsaved
          rw [hqueueId, hlookup] at hshown
          exact (CompletionPayload.history_of_continues hcontinues).trans
            (Option.some.inj hshown).symm
        simp only [rowId_mergeRequestRow, key_mergeRequestRow] at hid hkey
        rw [heq, hid, hkey]
        refine ⟨fun hnone ↦ absurd hnone (Option.some_ne_none payload), fun p hp ↦ ?_⟩
        rw [← Option.some.inj hp, hpayload]
        exact ⟨hlookup, hmrKey⟩
      · obtain rfl := hprepare _ _ _ hop
        exact ⟨h.open_ r' hr', h.owned r' hr'⟩
    · rw [pendingCompletion_of_fresh hnew]
      refine ⟨fun _ ↦ ?_, fun payload hpayload ↦ absurd hpayload (Option.not_mem_none payload)⟩
      rw [List.lookup_eq_none_iff]
      intro entry hentry
      have hlt := h.below entry hentry
      simp only [bne_iff_ne]
      simp only [rowId_mergeRequestRow] at hfresh
      omega
  refine ⟨fun r hr ↦ (hsource r hr).1, fun r hr ↦ (hsource r hr).2, ?_, ?_⟩
  · exact fun entry hentry ↦ (h.below entry hentry).trans_le hevolves.nextId_le
  · intro item hitem payload hpayload
    rcases List.mem_append.mp hitem with hold | hnew
    · exact h.shown item hold payload hpayload
    · obtain ⟨r, hr, hshows⟩ := exec_items hexec hnew
      rw [hshows.queueId]
      exact ((hsource r hr).2 payload (hshows.pendingCompletion ▸ hpayload)).1

theorem freezes_of_taken {projectId mrIid : ℕ} {request : CompletionRequest} {db : Database}
    (hop : call.op = .prepareCompletion projectId mrIid request)
    (h : ∀ row ∈ db.row projectId mrIid, (∀ id ∈ request.queueId, row.id = id) →
      row.pendingCompletion.isSome = true) : call.freezes db = [] := by
  simp only [Call.freezes, hop, List.map_eq_nil_iff, Option.toList_eq_nil_iff,
    Option.filter_eq_none_iff, Bool.and_eq_true, not_and]
  intro row hrow hguard
  rw [Option.all_eq_true] at hguard
  have hsome := h row hrow fun id hid ↦ of_decide_eq_true (hguard id hid)
  simpa [Option.isSome_iff_ne_none] using hsome

theorem freezes_of_open {projectId mrIid : ℕ} {request : CompletionRequest} {db : Database}
    {row : MergeRequestRow} (hop : call.op = .prepareCompletion projectId mrIid request)
    (hrow : row ∈ db.row projectId mrIid) (hguard : ∀ id ∈ request.queueId, row.id = id)
    (hnone : row.pendingCompletion = none) :
    call.freezes db =
      [(row.id, (completionPayload (rowToQueueItem row) request call.now).history)] := by
  have hall : (request.queueId.all fun id ↦ decide (row.id = id)) = true := by
    rw [Option.all_eq_true]
    exact fun id hid ↦ decide_eq_true (hguard id hid)
  have hfilter : (db.row projectId mrIid).filter (fun row ↦
      (request.queueId.all fun id ↦ decide (row.id = id)) && row.pendingCompletion.isNone) =
      some row := by
    rw [Option.filter_eq_some_iff]
    exact ⟨hrow, by simp [hall, hnone]⟩
  simp only [Call.freezes, hop, hfilter]
  rfl

/-- Freezing an outcome records the values of its row. -/
theorem freeze (h : Tracked w) {projectId mrIid : ℕ} {request : CompletionRequest}
    {row : MergeRequestRow} (hrow : row ∈ w.db.row projectId mrIid)
    (hnone : row.pendingCompletion = none) (now : ℤ)
    (hnext : db'.mergeRequests.nextId = w.db.mergeRequests.nextId)
    (hrows : db'.mergeRequests.rows = w.db.mergeRequests.rows.map
      fun r ↦ if r.id = row.id then preparedRow request now r else r)
    {items : List QueueItem}
    (hitems : ∀ item ∈ items, item.queueId = row.id ∧
      item.pendingCompletion = some (completionPayload (rowToQueueItem row) request now))
    (ended : List HistoryParams) :
    Tracked ⟨db', w.items ++ items,
      w.frozen ++ [(row.id, (completionPayload (rowToQueueItem row) request now).history)],
      ended⟩ := by
  have hmem := KeyedTable.mem_of_byKey hrow
  have hopen := h.open_ row hmem hnone
  have hnew : (w.frozen ++
      [(row.id, (completionPayload (rowToQueueItem row) request now).history)]).lookup row.id =
      some (completionPayload (rowToQueueItem row) request now).history := by
    simp [List.lookup_append, hopen]
  have hold (n : ℕ) (hn : n ≠ row.id) : (w.frozen ++
      [(row.id, (completionPayload (rowToQueueItem row) request now).history)]).lookup n =
      w.frozen.lookup n := by
    have hne : (n == row.id) = false := by simpa using hn
    simp [List.lookup_append, List.lookup_cons, hne]
  have hkeep (n : ℕ) (values : HistoryParams) (hn : w.frozen.lookup n = some values) :
      (w.frozen ++ [(row.id, (completionPayload (rowToQueueItem row) request
        now).history)]).lookup n = some values := by
    rw [hold n fun heq ↦ by simp [heq, hopen] at hn, hn]
  refine ⟨?_, ?_, ?_, ?_⟩
  · intro r' hr' hr'none
    obtain ⟨r, hr, rfl⟩ := List.mem_map.mp (hrows ▸ hr')
    by_cases hid : r.id = row.id
    · simp [hid, preparedRow] at hr'none
    · rw [if_neg hid] at hr'none ⊢
      rw [hold r.id hid]
      exact h.open_ r hr hr'none
  · intro r' hr' payload hpayload
    obtain ⟨r, hr, rfl⟩ := List.mem_map.mp (hrows ▸ hr')
    by_cases hid : r.id = row.id
    · obtain rfl := w.db.mergeRequests.eq_of_rowId_eq hr hmem hid
      rw [if_pos rfl] at hpayload ⊢
      cases hpayload
      exact ⟨hnew, rfl⟩
    · rw [if_neg hid] at hpayload ⊢
      obtain ⟨hlookup, hkey⟩ := h.owned r hr payload hpayload
      exact ⟨hkeep _ _ hlookup, hkey⟩
  · intro entry hentry
    rw [hnext]
    rcases List.mem_append.mp hentry with hentry | hentry
    · exact h.below entry hentry
    · rw [List.mem_singleton.mp hentry]
      exact w.db.mergeRequests.below row hmem
  · intro item hitem payload hpayload
    rcases List.mem_append.mp hitem with hitem | hitem
    · exact hkeep _ _ (h.shown item hitem payload hpayload)
    · obtain ⟨hqueueId, hpending⟩ := hitems item hitem
      rw [hqueueId, hnew]
      cases hpending.symm.trans hpayload
      rfl

theorem apply (h : Tracked w) (hpermitted : call.permitted w = true) :
    Tracked (call.apply w) := by
  rw [Call.apply]
  cases hexec : call.op.exec call.qm call.now call.tokens w.db with
  | error e => exact h
  | ok result =>
      obtain ⟨answer, db'⟩ := result
      simp only
      by_cases hprepare : ∃ projectId mrIid request,
          call.op = .prepareCompletion projectId mrIid request
      · obtain ⟨projectId, mrIid, request, hop⟩ := hprepare
        obtain ⟨qm, now, tokens, op⟩ := call
        cases hop
        rcases prepareCompletion_eq_ok hexec with
          ⟨rfl, -, hguard⟩ | ⟨rfl, row, hrow, -, hsome, -⟩ |
            ⟨row, hrow, hguard, hnone, -, hnext, hrows, hanswer⟩
        · rw [freezes_of_taken rfl fun row hrow hid ↦ ?_, List.append_nil]
          · exact h.keep hpermitted hexec (fun _ _ _ _ ↦ rfl) _
          · obtain ⟨id, hmem, hne⟩ := hguard row hrow
            exact absurd (hid id hmem) hne
        · rw [freezes_of_taken rfl fun r hr _ ↦ ?_, List.append_nil]
          · exact h.keep hpermitted hexec (fun _ _ _ _ ↦ rfl) _
          · rw [← Option.some.inj (hrow.symm.trans hr)]
            exact hsome
        · rw [freezes_of_open rfl hrow hguard hnone]
          refine h.freeze hrow hnone now hnext hrows ?_ _
          intro item hitem
          rw [hanswer] at hitem
          obtain rfl := Option.some.inj (Option.mem_toList.mp hitem)
          exact ⟨rfl, rfl⟩
      · have hfreezes : call.freezes w.db = [] := by
          unfold Call.freezes
          split
          · next hop => exact absurd ⟨_, _, _, hop⟩ hprepare
          · rfl
        rw [hfreezes, List.append_nil]
        exact h.keep hpermitted hexec
          (fun projectId mrIid request hop ↦ absurd ⟨_, _, _, hop⟩ hprepare) _

end Tracked

/-! ## What a call writes into the history -/

theorem history_finalizeCompletion {qm : QueueManager} {projectId : ℕ} {item : QueueItem}
    {payload : CompletionPayload} {now : ℤ} {tokens : ℕ → Uuid} {db db' : Database} {done : Bool}
    (h : qm.finalizeCompletion projectId item payload now tokens db = .ok (done, db')) :
    (done = false ∧ db'.history = db.history) ∨
    (done = true ∧ (∃ r ∈ db.mergeRequests.rows, r.id = item.queueId ∧
        r.pendingCompletion = some payload) ∧
      db'.history = db.history.insertOrIgnore fun id ↦ { id, values := payload.history }) := by
  rcases finalizeCompletion_eq_ok h with
    ⟨rfl, rfl⟩ | ⟨rfl, ⟨r, hr, -, hid, hpending, -⟩, db₁, hdb₁, rfl⟩
  · exact Or.inl ⟨rfl, rfl⟩
  · refine Or.inr ⟨rfl, ⟨r, hr, hid, hpending⟩, ?_⟩
    rcases hdb₁ with ⟨-, rfl⟩ | ⟨requeue, -, -, htransfer⟩
    · rfl
    · obtain ⟨admission, isHotfix, isAutomated, -, -, rfl⟩ := transferRequeue_eq_ok htransfer
      rfl

theorem history_completeMr (projectId mrIid : ℕ) (outcome : Outcome) (expected : Option ℕ)
    (now : ℤ) (db : Database) :
    ((QueueManager.completeMr projectId mrIid outcome expected now db).1 = false ∧
      (QueueManager.completeMr projectId mrIid outcome expected now db).2.history = db.history) ∨
    ∃ row, db.row projectId mrIid = some row ∧
      (QueueManager.completeMr projectId mrIid outcome expected now db).1 = true ∧
      (QueueManager.completeMr projectId mrIid outcome expected now db).2.history =
        db.history.insertOrIgnore fun id ↦
          { id, values := historyParams (rowToQueueItem row) outcome now } := by
  unfold QueueManager.completeMr
  simp only
  split
  · exact Or.inl ⟨rfl, rfl⟩
  · next row hfind =>
      have hrow : db.row projectId mrIid = some row := by
        have hkey := List.find?_some hfind
        simp only [Bool.and_eq_true, decide_eq_true_eq] at hkey
        refine KeyedTable.byKey_eq_some_iff.mpr ⟨List.mem_of_find?_eq_some hfind, ?_⟩
        simp [hkey.1.1.1, hkey.1.1.2]
      exact Or.inr ⟨row, hrow, rfl, rfl⟩

/-- A call either ends no lifecycle and leaves the history, or it offers the
history the values of the one it ends. -/
theorem Tracked.history_apply {w : QueueWorld} (h : Tracked w) (call : Call) :
    (call.ended w = [] ∧ (call.apply w).ended = w.ended ∧
      (call.apply w).db.history = w.db.history) ∨
    ∃ values, call.ended w = [values] ∧ (call.apply w).ended = w.ended ++ [values] ∧
      (call.apply w).db.history =
        w.db.history.insertOrIgnore fun id ↦ { id, values } := by
  rw [Call.apply, Call.ended]
  cases hexec : call.op.exec call.qm call.now call.tokens w.db with
  | error e => exact Or.inl ⟨rfl, rfl, rfl⟩
  | ok result =>
      obtain ⟨answer, db'⟩ := result
      obtain ⟨qm, now, tokens, op⟩ := call
      simp only
      cases op with
      | finalizeCompletion projectId item payload =>
          rcases history_finalizeCompletion hexec with
            ⟨rfl, hhistory⟩ | ⟨rfl, ⟨r, hr, hid, hpending⟩, hhistory⟩
          · exact Or.inl ⟨rfl, List.append_nil _, hhistory⟩
          · have hlookup := (h.owned r hr payload hpending).1
            refine Or.inr ⟨payload.history, ?_, ?_, hhistory⟩ <;>
              simp [QueueOp.ends, ← hid, hlookup]
      | completeMr projectId mrIid outcome expected =>
          have hresult := Except.ok.inj hexec
          obtain rfl := (congrArg Prod.fst hresult).symm
          obtain rfl := (congrArg Prod.snd hresult).symm
          rcases history_completeMr projectId mrIid outcome expected now w.db with
            ⟨hdone, hhistory⟩ | ⟨row, hrow, hdone, hhistory⟩
          · refine Or.inl ⟨?_, ?_, hhistory⟩ <;> simp [QueueOp.ends, hdone]
          · refine Or.inr ⟨_, ?_, ?_, hhistory⟩ <;> simp [QueueOp.ends, hdone, hrow]
      | _ => exact Or.inl ⟨rfl, List.append_nil _, exec_history hexec rfl⟩

/-! ## Histories without a conflict -/

/-- A history that is the list of ended lifecycles keeps them all. -/
theorem keepsHistory_of_values_eq {w : QueueWorld}
    (h : w.db.history.rows.map HistoryRow.values = w.ended) : KeepsHistory w where
  own := by
    intro values hvalues
    obtain ⟨r, hr, rfl⟩ := List.mem_map.mp (h ▸ hvalues)
    exact ⟨r, hr, rfl⟩
  count := by
    intro key
    rw [← h, List.countP_map]
    rfl
  latest := by
    intro projectId mrIid values hrow hlatest
    rw [← h, List.filter_map, List.getLast?_map] at hlatest
    obtain ⟨r, hr, rfl⟩ := Option.map_eq_some_iff.mp hlatest
    have hhistory : latestHistory projectId mrIid w.db = some r := by
      rw [latestHistory, ← hr]
      congr 2
      funext r
      simp [HistoryParams.mrKey, Bool.and_comm]
    rw [QueueManager.getMrState, hrow]
    simp only [hhistory]
    rfl

/-- An insertion that finds no row of the merge request appends one. -/
theorem values_insertOrIgnore_of_free {t : KeyedTable HistoryRow} {values : HistoryParams}
    (h : t.byKey values.mrKey = none) :
    (t.insertOrIgnore fun id ↦ { id, values }).rows.map HistoryRow.values =
      t.rows.map HistoryRow.values ++ [values] := by
  rw [KeyedTable.insertOrIgnore_rows_of_free h, List.map_append]
  rfl

/-- A completion that finds a history row of its merge request loses its outcome. -/
theorem not_keepsHistory_of_taken {w w' : QueueWorld} {values : HistoryParams}
    (h : KeepsHistory w) (hended : w'.ended = w.ended ++ [values])
    (hhistory : w'.db.history = w.db.history.insertOrIgnore fun id ↦ { id, values })
    (htaken : w.db.history.byKey values.mrKey ≠ none) : ¬ KeepsHistory w' := by
  intro h'
  obtain ⟨r, hr⟩ := Option.ne_none_iff_exists'.mp htaken
  have hsame : w'.db.history = w.db.history := by
    rw [hhistory]
    exact KeyedTable.insertOrIgnore_of_taken hr
  have hbefore := h.count values.mrKey
  have hafter := h'.count values.mrKey
  rw [hsame, hbefore, hended, List.countP_append, List.countP_singleton] at hafter
  simp at hafter

/-- The history keeps every ended lifecycle at every moment of a run exactly when no
completing call finds a history row of its merge request. -/
theorem keepsHistory_iff_from {calls : List Call} {w : QueueWorld} (htracked : Tracked w)
    (hpermitted : Permitted calls w) (hvalues : w.db.history.rows.map HistoryRow.values = w.ended) :
    (∀ w' ∈ moments calls w, KeepsHistory w') ↔
      ∀ step ∈ steps calls w, ∀ values ∈ step.2.ended step.1,
        step.1.db.history.byKey values.mrKey = none := by
  induction calls generalizing w with
  | nil => simpa [moments, steps] using keepsHistory_of_values_eq hvalues
  | cons call calls ih =>
      have htracked' := htracked.apply hpermitted.1
      have hnow := keepsHistory_of_values_eq hvalues
      simp only [moments, steps, List.forall_mem_cons]
      rcases htracked.history_apply call with
        ⟨hnone, hended, hhistory⟩ | ⟨values, hone, hended, hhistory⟩
      · have hvalues' : (call.apply w).db.history.rows.map HistoryRow.values =
            (call.apply w).ended := by
          rw [hhistory, hended, hvalues]
        rw [ih htracked' hpermitted.2 hvalues']
        simp [hnow, hnone]
      · by_cases hfree : w.db.history.byKey values.mrKey = none
        · have hvalues' : (call.apply w).db.history.rows.map HistoryRow.values =
              (call.apply w).ended := by
            rw [hhistory, hended, values_insertOrIgnore_of_free hfree, hvalues]
          rw [ih htracked' hpermitted.2 hvalues']
          simp [hnow, hone, hfree]
        · have hlost := not_keepsHistory_of_taken hnow hended hhistory hfree
          have hmoment : call.apply w ∈ moments calls (call.apply w) := by
            cases calls <;> simp [moments]
          constructor
          · exact fun hkeeps ↦ absurd (hkeeps.2 _ hmoment) hlost
          · intro hfreeAll
            exact absurd (hfreeAll.1 values (by simp [hone])) hfree

theorem keepsHistory_iff_completed_once {calls : List Call} (hcalls : Permitted calls .empty) :
    (∀ w ∈ moments calls .empty, KeepsHistory w) ↔
      ∀ step ∈ steps calls .empty, ∀ values ∈ step.2.ended step.1,
        step.1.db.history.byKey values.mrKey = none :=
  keepsHistory_iff_from tracked_empty hcalls rfl

/-! ## A merge request that fails, is queued again and is merged -/

def attemptCalls (status : HistoryStatus) (now : ℤ) : List Call :=
  let call (now : ℤ) (op : QueueOp) : Call := { qm := {}, now, tokens := id, op }
  [call now (.addToQueue 1 sampleMergeRequest false),
    call (now + 1000000) (.completeMr 1 7 { historyStatus := status } none)]

theorem run_mem_moments (calls : List Call) (w : QueueWorld) :
    run calls w ∈ moments calls w := by
  induction calls generalizing w with
  | nil => simp [moments]
  | cons call calls ih => exact List.mem_cons_of_mem _ (ih (call.apply w))

theorem keepsHistory_of_one_attempt : KeepsHistory (run (attemptCalls .merged 0) .empty) :=
  (keepsHistory_iff_completed_once (by decide)).mpr (by decide +kernel) _ (run_mem_moments _ _)

theorem second_attempt_leaves_no_history :
    ¬ ∀ w ∈ moments (attemptCalls .failed 0 ++ attemptCalls .merged 2000000) .empty,
      KeepsHistory w := by
  intro h
  have hown := (h _ (run_mem_moments _ _)).own
  revert hown
  decide +kernel

end MergeQueue
