import MergeQueue.QueueCompletion
import MergeQueue.RequeueOrder
import MergeQueue.RequeueTransfer

/-!
# Finishing a completion over a saved request

The calls that write the saved request of one row, in any order.  The final
transaction reads the request together with the label events of the bot: it
drops a cancelled request and carries any other over to a new row, for which it
needs what an enqueue wrote.
-/

namespace MergeQueue

open QueueManager

/-- A call on the saved request of a row, with the token it draws. -/
inductive RequeueCall
  | defer (item : QueueItem) (request : EnqueueRequest) (allowActive : Bool) (token : Uuid)
  | cancel (eventAt precisionUs : ℤ) (messageId : Option String) (allowActive : Bool)
      (token : Uuid)
  | refresh (labels : List String) (eventAt : Option ℤ) (precisionUs : ℤ) (allowActive : Bool)

namespace RequeueCall

def allowActive : RequeueCall → Bool
  | defer _ _ allowActive _ | cancel _ _ _ allowActive _ | refresh _ _ _ allowActive => allowActive

def apply (projectId queueId : ℕ) (db : Database) : RequeueCall → Database
  | defer item request allowActive token =>
      committed db (deferRequeue projectId item request allowActive token db)
  | cancel eventAt precisionUs messageId allowActive token =>
      committed db
        (cancelRequeue projectId queueId eventAt precisionUs messageId allowActive token db)
  | refresh labels eventAt precisionUs allowActive =>
      committed db
        (refreshRequeueLabels projectId queueId labels eventAt precisionUs allowActive db)

/-- The call names the row `queueId`. -/
def On (queueId : ℕ) : RequeueCall → Prop
  | defer item .. => item.queueId = queueId
  | _ => True

/-- What a call makes of the request saved on a row that accepts it. -/
def fold (projectId : ℕ) (saved : Option Requeue) : RequeueCall → Option Requeue
  | defer item request _ token =>
      afterWrite (.enqueue request (requeueParams projectId item request)) saved token
  | cancel eventAt precisionUs messageId _ token =>
      afterWrite (.cancel eventAt precisionUs messageId) saved token
  | refresh labels eventAt precisionUs _ =>
      saved.map fun request ↦
        (refreshedRequeue request labels { requestedAt := eventAt, precisionUs }).getD request

end RequeueCall

def callAll (projectId queueId : ℕ) (calls : List RequeueCall) (db : Database) : Database :=
  calls.foldl (RequeueCall.apply projectId queueId) db

/-- The request saved on the row `queueId`. -/
def savedRequest (queueId : ℕ) (db : Database) : Option Requeue :=
  (db.mergeRequests.byId queueId).bind MergeRequestRow.requeueRequest

@[simp] theorem withRequeue_requeueRequest (row : MergeRequestRow) (saved : Option Requeue) :
    (row.withRequeue saved).requeueRequest = saved := rfl

@[simp] theorem withRequeue_self (row : MergeRequestRow) :
    row.withRequeue row.requeueRequest = row := rfl

@[simp] theorem withRequeue_withRequeue (row : MergeRequestRow) (s t : Option Requeue) :
    (row.withRequeue s).withRequeue t = row.withRequeue t := rfl

theorem mayWriteRequeue_withRequeue (projectId queueId : ℕ) (allowActive : Bool)
    (row : MergeRequestRow) (saved : Option Requeue) :
    mayWriteRequeue projectId queueId allowActive (row.withRequeue saved) =
      mayWriteRequeue projectId queueId allowActive row := rfl

section Row

variable {projectId queueId : ℕ} {db : Database} {row : MergeRequestRow}

theorem find?_mayWriteRequeue_eq_none {allowActive : Bool}
    (hrow : db.mergeRequests.byId queueId = some row)
    (hmay : mayWriteRequeue projectId queueId allowActive row = false) :
    db.mergeRequests.rows.find? (mayWriteRequeue projectId queueId allowActive) = none := by
  apply List.find?_eq_none.mpr
  intro s hs hsmay
  obtain ⟨hmem, hid⟩ := KeyedTable.byId_eq_some_iff.mp hrow
  have hsid := rowId_of_mayWriteRequeue hsmay
  obtain rfl := db.mergeRequests.eq_of_rowId_eq hs hmem (hsid.trans hid.symm)
  rw [hmay] at hsmay
  cases hsmay

theorem byId_writeRequeue (incoming : Incoming) (allowActive : Bool) (token : Uuid)
    (hrow : db.mergeRequests.byId queueId = some row) :
    (committed db (writeRequeue projectId queueId incoming allowActive token
        db)).mergeRequests.byId queueId =
      some (row.withRequeue
        (if mayWriteRequeue projectId queueId allowActive row = true then
          afterWrite incoming row.requeueRequest token
        else row.requeueRequest)) := by
  cases hmay : mayWriteRequeue projectId queueId allowActive row with
  | false =>
      simp only [writeRequeue, find?_mayWriteRequeue_eq_none hrow hmay, committed_ok]
      exact hrow
  | true =>
      obtain ⟨db', hwrite, hbyId⟩ := writeRequeue_eq incoming token hrow hmay
      simp only [hwrite, committed_ok, if_true]
      exact hbyId

theorem byId_refreshRequeueLabels (labels : List String) (eventAt : Option ℤ) (precisionUs : ℤ)
    (allowActive : Bool) (hrow : db.mergeRequests.byId queueId = some row) :
    (committed db (refreshRequeueLabels projectId queueId labels eventAt precisionUs allowActive
        db)).mergeRequests.byId queueId =
      some (row.withRequeue
        (if mayWriteRequeue projectId queueId allowActive row = true then
          row.requeueRequest.map fun request ↦
            (refreshedRequeue request labels { requestedAt := eventAt, precisionUs }).getD request
        else row.requeueRequest)) := by
  cases hmay : mayWriteRequeue projectId queueId allowActive row with
  | false =>
      simp only [refreshRequeueLabels, find?_mayWriteRequeue_eq_none hrow hmay, committed_ok]
      exact hrow
  | true =>
      have hfind : db.mergeRequests.rows.find?
          (mayWriteRequeue projectId queueId allowActive) = some row :=
        KeyedTable.find?_eq_some_of_byId hrow hmay fun s hs ↦ rowId_of_mayWriteRequeue hs
      simp only [refreshRequeueLabels, hfind, if_true]
      cases hsaved : row.requeueRequest with
      | none =>
          have hsame : row.withRequeue none = row := by rw [← hsaved, withRequeue_self]
          simpa [hsaved, hsame] using hrow
      | some saved =>
          have hsame : row.withRequeue (some saved) = row := by rw [← hsaved, withRequeue_self]
          cases hpending :
              refreshedRequeue saved labels { requestedAt := eventAt, precisionUs } with
          | none => simpa [hpending, hsame] using hrow
          | some pending =>
              have hmem : row ∈ db.mergeRequests.rows := (KeyedTable.byId_eq_some_iff.mp hrow).1
              have hany : (db.mergeRequests.rows.any fun r ↦
                  mayWriteRequeue projectId queueId allowActive r &&
                    r.requeueRequest = some saved) = true :=
                List.any_eq_true.mpr ⟨row, hmem, by simp [hmay, hsaved]⟩
              simp only [hpending, replaceRequeue, hany, if_true, committed_ok]
              rw [KeyedTable.byId_updateWhere, hrow]
              simp [hmay, hsaved, hpending, MergeRequestRow.withRequeue]

/-- A call changes the saved request of its row, and only where the row accepts it. -/
theorem RequeueCall.byId_apply {call : RequeueCall}
    (hrow : db.mergeRequests.byId queueId = some row) (hon : call.On queueId) :
    (call.apply projectId queueId db).mergeRequests.byId queueId =
      some (row.withRequeue
        (if mayWriteRequeue projectId queueId call.allowActive row = true then
          call.fold projectId row.requeueRequest
        else row.requeueRequest)) := by
  cases call with
  | defer item request allowActive token =>
      obtain rfl : item.queueId = queueId := hon
      exact byId_writeRequeue _ allowActive token hrow
  | cancel eventAt precisionUs messageId allowActive token =>
      exact byId_writeRequeue _ allowActive token hrow
  | refresh labels eventAt precisionUs allowActive =>
      exact byId_refreshRequeueLabels labels eventAt precisionUs allowActive hrow

/-- The requests saved on a row while calls are made on it. -/
theorem savedRequest_callAll {calls : List RequeueCall} {saved : Option Requeue}
    (hrow : db.mergeRequests.byId queueId = some (row.withRequeue saved))
    (hon : ∀ call ∈ calls, call.On queueId) :
    ∃ saved', (callAll projectId queueId calls db).mergeRequests.byId queueId =
      some (row.withRequeue saved') := by
  induction calls generalizing db saved with
  | nil => exact ⟨saved, hrow⟩
  | cons call calls ih =>
      apply ih
      · rw [call.byId_apply hrow (hon call List.mem_cons_self), withRequeue_withRequeue]
      · intro c hc
        exact hon c (List.mem_cons_of_mem call hc)

/-- The last of some calls folds itself into what the others saved. -/
theorem savedRequest_append {calls : List RequeueCall} {call : RequeueCall}
    (hrow : db.mergeRequests.byId queueId = some row)
    (hon : ∀ c ∈ calls ++ [call], c.On queueId) :
    savedRequest queueId (callAll projectId queueId (calls ++ [call]) db) =
      if mayWriteRequeue projectId queueId call.allowActive row = true then
        call.fold projectId (savedRequest queueId (callAll projectId queueId calls db))
      else savedRequest queueId (callAll projectId queueId calls db) := by
  obtain ⟨saved, hsaved⟩ := @savedRequest_callAll projectId queueId db row calls
    row.requeueRequest hrow fun c hc ↦ hon c (List.mem_append_left _ hc)
  have hlast := @RequeueCall.byId_apply projectId queueId _ _ call hsaved
    (hon call (List.mem_append_right _ (List.mem_singleton.mpr rfl)))
  have happend : callAll projectId queueId (calls ++ [call]) db =
      call.apply projectId queueId (callAll projectId queueId calls db) := by
    simp [callAll]
  rw [mayWriteRequeue_withRequeue, withRequeue_withRequeue] at hlast
  simp only [savedRequest, happend, hlast, hsaved, Option.bind_some, withRequeue_requeueRequest]

end Row

/-! ## The two promises -/

/-- A request that is not cancelled says what to enqueue. -/
def Finishable (own : List LabelEvent) (saved : Option Requeue) : Prop :=
  ∀ request, saved = some request → requeueIsCancelled request own = false →
    request.admission.isSome = true

/-- The latest decision on the row is a cancellation by a user. -/
def Withdrawn (own : List LabelEvent) (saved : Option Requeue) : Prop :=
  ∃ request, saved = some request ∧ requeueIsCancelled request own = true

/-- An event that a row which accepts it saves. -/
def Heeded (incoming : Incoming) (saved : Option Requeue) : Prop :=
  (∀ m, incoming.messageId = some m → m ∉ seenMessages saved) ∧ ¬ Kept incoming saved

theorem writtenRequeue_eq_none_of_not_heeded {incoming : Incoming} {saved : Option Requeue}
    (h : ¬ Heeded incoming saved) (token : Uuid) : writtenRequeue incoming saved token = none := by
  by_cases hseen : ∀ m, incoming.messageId = some m → m ∉ seenMessages saved
  · rcases writtenRequeue_of_unseen incoming hseen token with ⟨-, hnone⟩ | ⟨hkept, -⟩
    · exact hnone
    · exact absurd ⟨hseen, hkept⟩ h
  · push Not at hseen
    obtain ⟨m, hm, hmem⟩ := hseen
    have hcontains : m ∈ (saved.map Requeue.seenMessages).getD [] := hmem
    simp [writtenRequeue, hm, hcontains]

/-- A cancellation that is saved replaces the time of any earlier one and keeps
what an enqueue wrote. -/
theorem fold_cancel_of_heeded {eventAt p : ℤ} {m : Option String} {saved : Option Requeue}
    (h : Heeded (.cancel eventAt p m) saved) (token : Uuid) :
    ∃ request, afterWrite (.cancel eventAt p m) saved token = some request ∧
      request.intent = .cancel eventAt (saved.bind Requeue.admission) := by
  rcases writtenRequeue_of_unseen _ h.1 token with ⟨hkept, -⟩ | ⟨-, hwritten⟩
  · exact absurd hkept h.2
  · rw [afterWrite, hwritten, Option.some_or]
    exact ⟨_, rfl, rfl⟩

theorem fold_of_not_heeded {incoming : Incoming} {saved : Option Requeue}
    (h : ¬ Heeded incoming saved) (token : Uuid) : afterWrite incoming saved token = saved := by
  rw [afterWrite, writtenRequeue_eq_none_of_not_heeded h, Option.none_or]

theorem finishable_enqueue {own : List LabelEvent} {request : EnqueueRequest}
    {params : RequeueParams} {saved : Option Requeue} (h : Finishable own saved) (token : Uuid) :
    Finishable own (afterWrite (.enqueue request params) saved token) := by
  by_cases hheeded : Heeded (.enqueue request params) saved
  · rcases writtenRequeue_of_unseen _ hheeded.1 token with ⟨hkept, -⟩ | ⟨-, hwritten⟩
    · exact absurd hkept hheeded.2
    · intro r hr _
      rw [afterWrite, hwritten, Option.some_or, Option.some.injEq] at hr
      subst hr
      rfl
  · rw [fold_of_not_heeded hheeded]
    exact h

theorem intent_refreshedRequeue {saved pending : Requeue} {labels : List String}
    {source : SourceClock} (h : refreshedRequeue saved labels source = some pending) :
    ∃ old, saved.intent = .enqueue old ∧ pending.admission.isSome = true := by
  cases hintent : saved.intent with
  | cancel eventAt admission => simp [refreshedRequeue, hintent] at h
  | enqueue old =>
      refine ⟨old, rfl, ?_⟩
      simp only [refreshedRequeue, hintent] at h
      split_ifs at h
      all_goals
        cases h
        rfl

theorem finishable_refresh {own : List LabelEvent} {saved : Option Requeue}
    (h : Finishable own saved) (labels : List String) (source : SourceClock) :
    Finishable own
      (saved.map fun request ↦ (refreshedRequeue request labels source).getD request) := by
  cases saved with
  | none => exact h
  | some saved =>
      intro r hr hlive
      simp only [Option.map_some, Option.some.injEq] at hr
      cases hpending : refreshedRequeue saved labels source with
      | none =>
          rw [hpending, Option.getD_none] at hr
          exact h r (congrArg some hr) hlive
      | some pending =>
          rw [hpending, Option.getD_some] at hr
          subst hr
          obtain ⟨old, -, hsome⟩ := intent_refreshedRequeue hpending
          exact hsome

theorem transferRequeue_ne_keyError {qm : QueueManager} {projectId mrIid : ℕ}
    {payload : CompletionPayload} {requeue : Requeue} (h : requeue.admission.isSome = true)
    (now : ℤ) (token : Uuid) (db : Database) (key : String) :
    qm.transferRequeue projectId mrIid payload requeue now token db ≠ .error (.keyError key) := by
  obtain ⟨admission, hadmission⟩ := Option.isSome_iff_exists.mp h
  simp only [QueueManager.transferRequeue, hadmission, classifyLabels]
  intro herror
  split at herror
  · cases herror
  · split at herror <;> cases herror

theorem finalizeCompletion_ne_keyError {qm : QueueManager} {projectId : ℕ} {item : QueueItem}
    {payload : CompletionPayload} (h : Finishable payload.labelEvents item.requeueRequest)
    (now : ℤ) (tokens : ℕ → Uuid) (db : Database) (key : String) :
    qm.finalizeCompletion projectId item payload now tokens db ≠ .error (.keyError key) := by
  intro herror
  simp only [QueueManager.finalizeCompletion] at herror
  split at herror
  · cases hrequeue : item.requeueRequest with
    | none =>
        rw [hrequeue] at herror
        cases herror
    | some requeue =>
        rw [hrequeue] at herror
        cases hcancelled : requeueIsCancelled requeue payload.labelEvents with
        | true =>
            simp only [hcancelled, if_true] at herror
            cases herror
        | false =>
            have hsome := h requeue hrequeue hcancelled
            simp only [hcancelled, Bool.false_eq_true, if_false] at herror
            generalize htransfer : qm.transferRequeue projectId item.mrIid payload requeue now
              (tokens 0) _ = out at herror
            cases out with
            | error e =>
                simp only [bind, Except.bind, Except.error.injEq] at herror
                subst herror
                exact transferRequeue_ne_keyError hsome _ _ _ _ htransfer
            | ok db' => cases herror
  · cases herror

/-- The completion makes the labels agree with a request it can finish. -/
theorem settleRequeue_of_finishable {settings : Settings} {item : QueueItem}
    {payload : CompletionPayload} {requeue : Requeue}
    (h : Finishable payload.labelEvents (some requeue)) :
    ∃ action triggers, QueueCompletion.settleRequeue settings item payload (some requeue) =
      (do
        let (eventAt, payload) ←
          QueueCompletion.mutateLabels settings item payload action triggers
        QueueCompletion.recordLabelEvent settings item payload eventAt) := by
  cases hcancelled : requeueIsCancelled requeue payload.labelEvents with
  | true => exact ⟨.remove, [], by simp only [QueueCompletion.settleRequeue, hcancelled, if_true]⟩
  | false =>
      obtain ⟨admission, hadmission⟩ := Option.isSome_iff_exists.mp (h requeue rfl hcancelled)
      refine ⟨.restore, admission.triggers, ?_⟩
      simp only [QueueCompletion.settleRequeue, hcancelled, hadmission, Bool.false_eq_true,
        if_false]

/-! ## Calls on a row that starts with no saved request -/

section Calls

variable (projectId queueId : ℕ) (own : List LabelEvent) (calls : List RequeueCall)
  (db : Database)

/-- After each of the calls the completion can be finished, and no cancellation
undoes the one of a user. -/
structure CompletionsFinish : Prop where
  finishable : ∀ before, before <+: calls →
    Finishable own (savedRequest queueId (callAll projectId queueId before db))
  finalizes : ∀ before, before <+: calls → ∀ (qm : QueueManager) item payload now tokens db' key,
    item.requeueRequest = savedRequest queueId (callAll projectId queueId before db) →
    payload.labelEvents = own →
    qm.finalizeCompletion projectId item payload now tokens db' ≠ .error (.keyError key)
  settles : ∀ before, before <+: calls → ∀ settings item payload requeue,
    savedRequest queueId (callAll projectId queueId before db) = some requeue →
    payload.labelEvents = own →
    ∃ action triggers, QueueCompletion.settleRequeue settings item payload (some requeue) =
      (do
        let (eventAt, payload) ←
          QueueCompletion.mutateLabels settings item payload action triggers
        QueueCompletion.recordLabelEvent settings item payload eventAt)
  withdrawn : ∀ before eventAt p m allowActive token,
    before ++ [.cancel eventAt p m allowActive token] <+: calls →
    Withdrawn own (savedRequest queueId (callAll projectId queueId before db)) →
    Withdrawn own (savedRequest queueId (callAll projectId queueId
      (before ++ [.cancel eventAt p m allowActive token]) db))

/-- Each of the bot's own cancellations that is saved finds what an enqueue wrote,
and no cancellation by a user. -/
def OwnCancelsFindEnqueue (row : MergeRequestRow) : Prop :=
  ∀ before eventAt p m allowActive token,
    before ++ [.cancel eventAt p m allowActive token] <+: calls →
    LabelEvent.at eventAt ∈ own →
    mayWriteRequeue projectId queueId allowActive row = true →
    Heeded (.cancel eventAt p m)
      (savedRequest queueId (callAll projectId queueId before db)) →
    ∃ request, savedRequest queueId (callAll projectId queueId before db) = some request ∧
      request.admission.isSome = true ∧ requeueIsCancelled request own = false

end Calls

theorem requeueIsCancelled_of_cancel {request : Requeue} {eventAt : ℤ}
    {admission : Option Admission} (h : request.intent = .cancel eventAt admission)
    (own : List LabelEvent) :
    requeueIsCancelled request own = !own.contains (LabelEvent.at eventAt) := by
  simp [requeueIsCancelled, Requeue.cancelledEvents_of_cancel h]

theorem admission_of_cancel {request : Requeue} {eventAt : ℤ} {admission : Option Admission}
    (h : request.intent = .cancel eventAt admission) : request.admission = admission := by
  simp [Requeue.admission, h]

section Promises

variable {projectId queueId : ℕ} {own : List LabelEvent} {calls : List RequeueCall}
  {db : Database} {row : MergeRequestRow}

/-- One call keeps the saved request fit to be finished. -/
theorem finishable_append {before : List RequeueCall} {call : RequeueCall}
    (hrow : db.mergeRequests.byId queueId = some row)
    (hon : ∀ c ∈ before ++ [call], c.On queueId)
    (hcond : OwnCancelsFindEnqueue projectId queueId own (before ++ [call]) db row)
    (h : Finishable own (savedRequest queueId (callAll projectId queueId before db))) :
    Finishable own
      (savedRequest queueId (callAll projectId queueId (before ++ [call]) db)) := by
  rw [savedRequest_append hrow hon]
  by_cases hmay : mayWriteRequeue projectId queueId call.allowActive row = true
  · rw [if_pos hmay]
    cases call with
    | defer item request allowActive token => exact finishable_enqueue h token
    | refresh labels eventAt p allowActive => exact finishable_refresh h labels _
    | cancel eventAt p m allowActive token =>
        by_cases hheeded : Heeded (.cancel eventAt p m)
            (savedRequest queueId (callAll projectId queueId before db))
        · obtain ⟨request, hafter, hintent⟩ := fold_cancel_of_heeded hheeded token
          intro r hr hlive
          rw [RequeueCall.fold, hafter, Option.some.injEq] at hr
          subst hr
          rw [requeueIsCancelled_of_cancel hintent, Bool.not_eq_false', List.contains_iff_mem]
            at hlive
          obtain ⟨old, hold, hsome, -⟩ :=
            hcond before eventAt p m allowActive token List.prefix_rfl hlive hmay hheeded
          rw [admission_of_cancel hintent, hold]
          exact hsome
        · rw [RequeueCall.fold, fold_of_not_heeded hheeded]
          exact h
  · rw [if_neg hmay]
    exact h

theorem withdrawn_append {before : List RequeueCall} {eventAt p : ℤ} {m : Option String}
    {allowActive : Bool} {token : Uuid} (hrow : db.mergeRequests.byId queueId = some row)
    (hon : ∀ c ∈ before ++ [.cancel eventAt p m allowActive token], c.On queueId)
    (hcond : OwnCancelsFindEnqueue projectId queueId own
      (before ++ [.cancel eventAt p m allowActive token]) db row)
    (h : Withdrawn own (savedRequest queueId (callAll projectId queueId before db))) :
    Withdrawn own (savedRequest queueId (callAll projectId queueId
      (before ++ [.cancel eventAt p m allowActive token]) db)) := by
  rw [savedRequest_append hrow hon]
  by_cases hmay : mayWriteRequeue projectId queueId
      (RequeueCall.cancel eventAt p m allowActive token).allowActive row = true
  · rw [if_pos hmay, RequeueCall.fold]
    by_cases hheeded : Heeded (.cancel eventAt p m)
        (savedRequest queueId (callAll projectId queueId before db))
    · obtain ⟨request, hafter, hintent⟩ := fold_cancel_of_heeded hheeded token
      refine ⟨request, hafter, ?_⟩
      rw [requeueIsCancelled_of_cancel hintent, Bool.not_eq_true', ← Bool.not_eq_true,
        List.contains_iff_mem]
      intro hown
      obtain ⟨old, hold, -, hlive⟩ :=
        hcond before eventAt p m allowActive token List.prefix_rfl hown hmay hheeded
      obtain ⟨old', hold', hcancelled⟩ := h
      rw [hold, Option.some.injEq] at hold'
      subst hold'
      rw [hlive] at hcancelled
      cases hcancelled
    · rw [fold_of_not_heeded hheeded]
      exact h
  · rw [if_neg hmay]
    exact h

theorem OwnCancelsFindEnqueue.of_prefix {before : List RequeueCall}
    (h : OwnCancelsFindEnqueue projectId queueId own calls db row) (hbefore : before <+: calls) :
    OwnCancelsFindEnqueue projectId queueId own before db row :=
  fun start eventAt p m allowActive token hstart ↦
    h start eventAt p m allowActive token (hstart.trans hbefore)

theorem finishable_callAll (hrow : db.mergeRequests.byId queueId = some row)
    (hfresh : row.requeueRequest = none) (hon : ∀ c ∈ calls, c.On queueId)
    (hcond : OwnCancelsFindEnqueue projectId queueId own calls db row) :
    Finishable own (savedRequest queueId (callAll projectId queueId calls db)) := by
  induction calls using List.reverseRecOn with
  | nil =>
      intro request hrequest
      simp [savedRequest, callAll, hrow, hfresh] at hrequest
  | append_singleton before call ih =>
      apply finishable_append hrow hon hcond
      apply ih
      · intro c hc
        exact hon c (List.mem_append_left _ hc)
      · exact hcond.of_prefix (List.prefix_append before [call])

/-- Every completion can be finished, and a user's cancellation stands, exactly
when each saved cancellation of the bot's own finds what an enqueue wrote. -/
theorem completionsFinish_iff (hrow : db.mergeRequests.byId queueId = some row)
    (hfresh : row.requeueRequest = none) (hon : ∀ call ∈ calls, call.On queueId) :
    CompletionsFinish projectId queueId own calls db ↔
      OwnCancelsFindEnqueue projectId queueId own calls db row := by
  constructor
  · intro h before eventAt p m allowActive token hpre hown hmay hheeded
    have honPrefix : ∀ c ∈ before ++ [.cancel eventAt p m allowActive token], c.On queueId :=
      fun c hc ↦ hon c (hpre.subset hc)
    have hlast := @savedRequest_append projectId queueId db row _ _ hrow honPrefix
    obtain ⟨after, hafter, hintent⟩ := fold_cancel_of_heeded hheeded token
    rw [if_pos (show mayWriteRequeue projectId queueId
      (RequeueCall.cancel eventAt p m allowActive token).allowActive row = true from hmay),
      RequeueCall.fold, hafter] at hlast
    have hlive : requeueIsCancelled after own = false := by
      rw [requeueIsCancelled_of_cancel hintent, Bool.not_eq_false', List.contains_iff_mem]
      exact hown
    have hsome := h.finishable _ hpre after hlast hlive
    rw [admission_of_cancel hintent] at hsome
    obtain ⟨admission, hadmission⟩ := Option.isSome_iff_exists.mp hsome
    obtain ⟨request, hrequest, hrequestAdmission⟩ := Option.bind_eq_some_iff.mp hadmission
    refine ⟨request, hrequest, by rw [hrequestAdmission]; rfl, ?_⟩
    by_contra hcancelled
    obtain ⟨after', hafter', hcancelled'⟩ := h.withdrawn before eventAt p m allowActive token
      hpre ⟨request, hrequest, by simpa using hcancelled⟩
    rw [hlast, Option.some.injEq] at hafter'
    subst hafter'
    rw [hlive] at hcancelled'
    cases hcancelled'
  · intro hcond
    have hfinishable : ∀ before, before <+: calls →
        Finishable own (savedRequest queueId (callAll projectId queueId before db)) :=
      fun before hbefore ↦ finishable_callAll hrow hfresh
        (fun c hc ↦ hon c (hbefore.subset hc)) (hcond.of_prefix hbefore)
    refine ⟨hfinishable, ?_, ?_, ?_⟩
    · intro before hbefore qm item payload now tokens db' key hitem hown
      apply finalizeCompletion_ne_keyError
      rw [hitem, hown]
      exact hfinishable before hbefore
    · intro before hbefore settings item payload requeue hsaved hown
      apply settleRequeue_of_finishable
      rw [hown, ← hsaved]
      exact hfinishable before hbefore
    · intro before eventAt p m allowActive token hpre hwithdrawn
      exact withdrawn_append hrow (fun c hc ↦ hon c (hpre.subset hc))
        (hcond.of_prefix hpre) hwithdrawn

end Promises

/-! ## A merged request whose label the bot removes -/

def mergedDatabase : Database :=
  committed sampleDatabase (prepareCompletion 1 7 sampleCompletion 5000000 sampleDatabase)

def mergedRow : MergeRequestRow := preparedRow sampleCompletion 5000000 sampleRow

/-- The event of the bot's own cleanup, which GitLab delivers to the webhook. -/
def cleanupEvent : RequeueCall := .cancel 6000000 1000 (some "cleanup") false 3

def cleanupLabels : List LabelEvent := [.at 6000000]

theorem mergedDatabase_byId : mergedDatabase.mergeRequests.byId 1 = some mergedRow := by
  decide +kernel

/-- With the label back before the cleanup the completion goes through. -/
theorem completionsFinish_relabelled :
    CompletionsFinish 1 1 cleanupLabels
      [.defer (rowToQueueItem mergedRow)
        { clock := { requestedAt := some 5500000 }, triggers := ["merge_queue"],
          isHotfix := false } false 2, cleanupEvent] mergedDatabase := by
  refine (completionsFinish_iff mergedDatabase_byId rfl ?_).mpr ?_
  · simp [RequeueCall.On, cleanupEvent, rowToQueueItem, mergedRow, preparedRow, sampleRow,
      insertedRow]
  · intro before eventAt p m allowActive token hpre _ _ _
    obtain ⟨rest, hrest⟩ := hpre
    rcases before with _ | ⟨first, _ | ⟨second, before⟩⟩
    · simp at hrest
    · obtain ⟨rfl, -⟩ := List.cons.inj hrest
      have hsaved : ((savedRequest 1 (callAll 1 1 [.defer (rowToQueueItem mergedRow)
          { clock := { requestedAt := some 5500000 }, triggers := ["merge_queue"],
            isHotfix := false } false 2] mergedDatabase)).map fun request ↦
              (request.admission.isSome, requeueIsCancelled request cleanupLabels)) =
          some (true, false) := by
        decide +kernel
      obtain ⟨request, hrequest, hpair⟩ := Option.map_eq_some_iff.mp hsaved
      obtain ⟨hsome, hlive⟩ := Prod.mk.inj hpair
      exact ⟨request, hrequest, hsome, hlive⟩
    · simp [cleanupEvent] at hrest

/-- The event of the cleanup alone saves a request that is not cancelled and that
no transaction can carry over. -/
theorem cleanupEvent_blocks_completion :
    ¬ ∀ (projectId queueId : ℕ) (own : List LabelEvent) (calls : List RequeueCall)
        (db : Database) (row : MergeRequestRow),
        db.mergeRequests.byId queueId = some row → row.requeueRequest = none →
        (∀ call ∈ calls, call.On queueId) → CompletionsFinish projectId queueId own calls db := by
  intro hclaim
  have hfinish := hclaim 1 1 cleanupLabels [cleanupEvent] mergedDatabase mergedRow
    mergedDatabase_byId rfl (by simp [cleanupEvent, RequeueCall.On])
  have hsaved : ((savedRequest 1 (callAll 1 1 [cleanupEvent] mergedDatabase)).map fun request ↦
      (request.admission.isSome, requeueIsCancelled request cleanupLabels)) =
        some (false, false) := by
    decide +kernel
  obtain ⟨request, hrequest, hpair⟩ := Option.map_eq_some_iff.mp hsaved
  obtain ⟨hnone, hlive⟩ := Prod.mk.inj hpair
  have hsome := hfinish.finishable [cleanupEvent] List.prefix_rfl request hrequest hlive
  rw [hnone] at hsome
  cases hsome

end MergeQueue
