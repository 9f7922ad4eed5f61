import MergeQueue.MergeSafety
import MergeQueue.CompletionSteps
import MergeQueue.PermanentFailure

/-!
# What is recorded of a merge

GitLab may merge and answer with an error, or after the caller stopped waiting.  The
program records what the last answer told it, so a merge is recorded as one exactly
where that answer tells of it.
-/

namespace MergeQueue

open Interleave (Program)
open Interleave.Program (Finishes Leaves)
open QueueManager QueueOp

/-! ## What an answer tells -/

/-- What the caller of a merge learns from an exchange. -/
inductive Verdict
  | merged
  | unclear
  | refused
  deriving DecidableEq, Repr

/-- A read or a merge tells of the merge by the merge request in its body; a read without all
labels is refused. -/
def Sent.verdict (x : Sent) : Verdict :=
  match x.answer with
  | .transportError => .unclear
  | .response response =>
      if !response.isSuccess || (!x.request.isMerge && response.labelsError.isSome) then .refused
      else
        match response.mergeRequest with
        | none => .unclear
        | some mr => if x.request.isMerge || decide (mr.state = .merged) then .merged else .refused

/-- The verdict of the last exchange. -/
def lastVerdict (log : List Sent) : Verdict := (log.getLast?.map Sent.verdict).getD .refused

def ClientError.verdict : ClientError → Verdict
  | gitlab _ => .refused
  | transport | malformedBody => .unclear

theorem lastVerdict_concat (log : List Sent) (x : Sent) :
    lastVerdict (log ++ [x]) = x.verdict := by
  simp [lastVerdict]

theorem verdict_of_handleErrorResponse {response : Response} {e : ClientError}
    (h : handleErrorResponse response = .error e) :
    response.isSuccess = false ∧ e.verdict = .refused := by
  cases hsuccess : response.isSuccess with
  | true => simp [handleErrorResponse, hsuccess] at h
  | false =>
      simp only [handleErrorResponse, hsuccess, Bool.false_eq_true, if_false] at h
      refine ⟨rfl, ?_⟩
      split_ifs at h <;> cases h <;> rfl

theorem verdict_of_validateShaUnchanged {iid : ℕ} {expectedSha : Option String}
    {currentSha : String} {e : ClientError}
    (h : validateShaUnchanged iid expectedSha currentSha = .error e) : e.verdict = .refused := by
  cases expectedSha with
  | none => cases h
  | some expected =>
      simp only [validateShaUnchanged] at h
      split at h
      · cases h
        rfl
      · cases h

theorem verdict_of_handleMergeApiError {error : GitLabError} {iid : ℕ} {mr : MergeRequest}
    {e : ClientError} (h : handleMergeApiError error iid mr = .error e) : e.verdict = .refused := by
  unfold handleMergeApiError at h
  split at h
  · cases h
    rfl
  · split at h <;> cases h
    rfl

/-- The result of a request agrees with the last exchange. -/
structure Agrees (r : ApiRequest) (result : Except ClientError Response) (log : List Sent) :
    Prop where
  ok : ∀ response, result = .ok response → response.isSuccess = true ∧
    ∃ x, log.getLast? = some x ∧ x.request = r ∧ x.answer = .response response
  error : ∀ e, result = .error e → lastVerdict log = e.verdict

theorem executeSingleRequest_agrees (r : ApiRequest) (w : ClientWorld) :
    Agrees r (executeSingleRequest r w).1 (executeSingleRequest r w).2.trace := by
  cases hanswer : w.nextExchange.answer with
  | transportError =>
      simp only [executeSingleRequest, ClientWorld.send, hanswer]
      refine ⟨fun response h ↦ (by cases h), ?_⟩
      rintro _ ⟨⟩
      rw [lastVerdict_concat]
      rfl
  | response response =>
      simp only [executeSingleRequest, ClientWorld.send, hanswer]
      cases herror : handleErrorResponse response with
      | error e =>
          obtain ⟨hsuccess, hverdict⟩ := verdict_of_handleErrorResponse herror
          refine ⟨fun response h ↦ (by cases h), ?_⟩
          rintro _ ⟨⟩
          rw [lastVerdict_concat, hverdict]
          simp [Sent.verdict, hsuccess]
      | ok u =>
          refine ⟨?_, fun e h ↦ by cases h⟩
          rintro _ ⟨⟩
          exact ⟨isSuccess_of_handleErrorResponse herror, _, List.getLast?_concat, rfl, rfl⟩

/-- The loop that sends a request again ends with its last exchange. -/
theorem executeAttempts_agrees (r : ApiRequest) (retries : ℕ) (w : ClientWorld) :
    ∃ result : Except ClientError Response,
      (executeAttempts reraising r retries w).1 = result.mapError Raised.own ∧
        Agrees r result (executeAttempts reraising r retries w).2.trace := by
  induction retries generalizing w with
  | zero =>
      have hsingle := executeSingleRequest_agrees r w
      rw [executeAttempts]
      generalize executeSingleRequest r w = out at hsingle ⊢
      obtain ⟨e | response, w'⟩ := out
      · by_cases hretry : e.retryable = true
        · exact ⟨.error e, by simp only [if_pos hretry]; rfl, by simpa only [if_pos hretry]⟩
        · exact ⟨.error e, by simp only [if_neg hretry]; rfl, by simpa only [if_neg hretry]⟩
      · exact ⟨.ok response, rfl, hsingle⟩
  | succ retries ih =>
      have hsingle := executeSingleRequest_agrees r w
      rw [executeAttempts]
      generalize executeSingleRequest r w = out at hsingle ⊢
      obtain ⟨e | response, w'⟩ := out
      · by_cases hretry : e.retryable = true
        · simpa only [if_pos hretry] using ih w'
        · exact ⟨.error e, by simp only [if_neg hretry]; rfl, by simpa only [if_neg hretry]⟩
      · exact ⟨.ok response, rfl, hsingle⟩

section Verdicts

variable (client : ClientSettings) {w : ClientWorld}

/-- An open circuit sends nothing. -/
theorem request_agrees (r : ApiRequest) (hw : lastVerdict w.trace = .refused) :
    Agrees r (request client reraising r w).1 (request client reraising r w).2.trace := by
  rw [request]
  simp only [ClientWorld.tick]
  cases hbefore : w.breaker.beforeCall (w.clock w.ticks) with
  | error retryAfter =>
      refine ⟨fun response h ↦ (by cases h), ?_⟩
      rintro _ ⟨⟩
      exact hw
  | ok breaker =>
      obtain ⟨result, hresult, hagrees⟩ := executeAttempts_agrees r (client.apiMaxRetries - 1)
        { w with ticks := w.ticks + 1, breaker }
      simp only [executeWithRetry]
      generalize executeAttempts reraising r (client.apiMaxRetries - 1)
        { w with ticks := w.ticks + 1, breaker } = out at hresult hagrees ⊢
      obtain ⟨first, w'⟩ := out
      cases result with
      | error e =>
          obtain rfl : first = .error (.own e) := hresult
          exact hagrees
      | ok response =>
          obtain rfl : first = .ok response := hresult
          exact hagrees

theorem getMr_verdict (iid : ℕ) (hw : lastVerdict w.trace = .refused) :
    (∀ mr, (getMr client reraising iid w).1 = .ok mr →
      lastVerdict (getMr client reraising iid w).2.trace =
        if mr.state = .merged then .merged else .refused) ∧
    ∀ e, (getMr client reraising iid w).1 = .error e →
      lastVerdict (getMr client reraising iid w).2.trace = e.verdict := by
  have hagrees := request_agrees client (.getMr iid) hw
  rw [getMr]
  generalize request client reraising (.getMr iid) w = out at hagrees ⊢
  obtain ⟨e | response, w'⟩ := out
  · refine ⟨fun mr h ↦ (by cases h), ?_⟩
    rintro _ ⟨⟩
    exact hagrees.error e rfl
  · obtain ⟨hsuccess, x, hx, hrequest, hanswer⟩ := hagrees.ok response rfl
    have hlast : lastVerdict w'.trace = x.verdict := by simp [lastVerdict, hx]
    have hread : x.verdict = if response.labelsError.isSome then .refused else
        match response.mergeRequest with
        | none => .unclear
        | some mr => if mr.state = .merged then .merged else .refused := by
      simp [Sent.verdict, hanswer, hsuccess, hrequest, ApiRequest.isMerge]
    rw [parseMrSnapshot_world, hlast, hread]
    refine ⟨fun mr h ↦ ?_, fun e h ↦ ?_⟩
    · obtain ⟨response', hok, hlabels, hbody⟩ := parseMrSnapshot_eq_ok h
      cases hok
      simp [hlabels, hbody]
    · simp only [parseMrSnapshot] at h
      cases hlabels : response.labelsError with
      | some message =>
          rw [hlabels] at h
          cases h
          rfl
      | none =>
          rw [hlabels] at h
          simp only [parseMergeRequest] at h
          cases hbody : response.mergeRequest with
          | none =>
              rw [hbody] at h
              cases h
              rfl
          | some mr =>
              rw [hbody] at h
              cases h

theorem executeMerge_verdict (iid : ℕ) (hw : lastVerdict w.trace = .refused) :
    (∀ mr, (executeMerge client reraising iid w).1 = .ok mr →
      lastVerdict (executeMerge client reraising iid w).2.trace = .merged) ∧
    ∀ e, (executeMerge client reraising iid w).1 = .error e →
      lastVerdict (executeMerge client reraising iid w).2.trace = e.verdict := by
  have hagrees := request_agrees client (.mergeMr iid "ff" none) hw
  rw [executeMerge]
  generalize request client reraising (.mergeMr iid "ff" none) w = out at hagrees ⊢
  obtain ⟨e | response, w'⟩ := out
  · refine ⟨fun mr h ↦ (by cases h), ?_⟩
    rintro _ ⟨⟩
    exact hagrees.error e rfl
  · obtain ⟨hsuccess, x, hx, hrequest, hanswer⟩ := hagrees.ok response rfl
    have hlast : lastVerdict w'.trace = x.verdict := by simp [lastVerdict, hx]
    cases hbody : response.mergeRequest with
    | none =>
        simp only [parseMergeRequest, hbody]
        refine ⟨fun mr h ↦ (by cases h), ?_⟩
        rintro _ ⟨⟩
        simp [hlast, Sent.verdict, hanswer, hsuccess, hbody, hrequest, ApiRequest.isMerge,
          ClientError.verdict]
    | some mr =>
        simp only [parseMergeRequest, hbody]
        refine ⟨?_, fun e h ↦ by cases h⟩
        rintro _ ⟨⟩
        simp [hlast, Sent.verdict, hanswer, hsuccess, hbody, hrequest, ApiRequest.isMerge]

/-- What the attempts to merge return is the verdict of the last exchange. -/
theorem mergeAttempts_verdict (iid : ℕ) (expectedSha : Option String) (attempts : ℕ)
    (hw : lastVerdict w.trace = .refused) :
    lastVerdict (mergeAttempts client reraising iid expectedSha attempts w).2.trace =
      match (mergeAttempts client reraising iid expectedSha attempts w).1 with
      | .ok _ => .merged
      | .error e => e.verdict := by
  induction attempts generalizing w with
  | zero => exact hw
  | succ attempts ih =>
      have hget := getMr_verdict client iid hw
      rw [mergeAttempts]
      generalize getMr client reraising iid w = out at hget ⊢
      obtain ⟨e | mr, w₁⟩ := out
      · exact hget.2 e rfl
      · have hread := hget.1 mr rfl
        by_cases hmerged : mr.state = .merged
        · simpa only [hmerged, if_true] using hread
        · simp only [hmerged, if_false] at hread ⊢
          cases hvalid : validateShaUnchanged iid expectedSha mr.sha with
          | error e =>
              exact hread.trans (verdict_of_validateShaUnchanged hvalid).symm
          | ok u =>
              simp only
              split_ifs with hchecking hready
              · exact ih hread
              · exact hread
              · have hmerge := executeMerge_verdict client iid hread
                generalize executeMerge client reraising iid w₁ = out at hmerge ⊢
                obtain ⟨(e | _ | _) | mr', w₂⟩ := out
                · have hlast := hmerge.2 _ rfl
                  cases hhandled : handleMergeApiError e iid mr with
                  | ok u =>
                      simp only [hhandled]
                      exact ih hlast
                  | error e' =>
                      simp only [hhandled]
                      exact hlast.trans (verdict_of_handleMergeApiError hhandled).symm
                · exact hmerge.2 _ rfl
                · exact hmerge.2 _ rfl
                · exact hmerge.1 mr' rfl

end Verdicts

/-! ## The merge step of the processor -/

/-- The exception that a failed call of the client raises. -/
def ClientError.raised : ClientError → PyError
  | gitlab e => .gitlab e
  | transport => .other "transport error"
  | malformedBody => .other "malformed body"

/-- What `wait_for` makes of a merge call, and what was sent: the timeout, when it
fires, fires after the first `cut` requests. -/
def answered (call : Except ClientError MergeRequest × ClientWorld) :
    Option ℕ → Except PyError MergeRequest × List Sent
  | none => (call.1.mapError ClientError.raised, call.2.trace)
  | some cut => (.error .timeoutError, call.2.trace.take cut)

namespace MergeProcessor

variable (settings : Settings)

/-- The handler of `_process_mr`. -/
def handleRaised (mrIid : ℕ) (e : PyError) : Prog ProcessingResult := do
  catching PyError.isException (handleProcessingError settings mrIid e) fun _ ↦ pure ()
  return .error

theorem processMr_eq (mrIid : ℕ) :
    processMr settings mrIid =
      (do
        Program.update fun s ↦ { s with machine := none }
        catching PyError.isException (attempt settings mrIid)
          (handleRaised settings mrIid)) := rfl

/-- `_process_merge` under the handler of `_process_mr`. -/
def processing (mrIid : ℕ) : Prog ProcessingResult :=
  catching PyError.isException (processMerge settings mrIid) (handleRaised settings mrIid)

/-- What is left to do once the merge call has returned or raised. -/
def afterMerge (mrIid : ℕ) (answer : Except PyError MergeRequest) : Prog ProcessingResult :=
  catching PyError.isException
    (tryCatch
      (do
        let _ ← Program.ofExcept answer
        MRStateMachine.triggerMergeSuccess settings
        return .success)
      (failMerge settings))
    (handleRaised settings mrIid)

/-- The step reads the row, makes the merge call, and goes on with its answer. -/
theorem processing_asks (mrIid : ℕ) (s : Local) :
    ∃ next, processing settings mrIid s =
        .ask s (.db (.getQueueItem settings.gitlabProjectId mrIid)) next ∧
      ∀ item : Option QueueItem, ∃ rest, next (.ok item) =
          .ask s (.gitlab (.mergeMr mrIid (item.bind QueueItem.expectedSha))) rest ∧
        ∀ answer, rest answer = afterMerge settings mrIid answer s := by
  refine ⟨_, rfl, fun item ↦ ⟨_, rfl, fun answer ↦ ?_⟩⟩
  cases answer <;> rfl

end MergeProcessor

/-! ## A completion of an open row -/

/-- The row of the merge request carries a frozen outcome. -/
def Held (settings : Settings) (mrIid : ℕ) (db : Database) : Prop :=
  ∃ r, db.row settings.gitlabProjectId mrIid = some r ∧ r.pendingCompletion.isSome = true

/-- The operation deletes no row. -/
def Op.sparing (op : Op) : Prop := ∀ q, op = .db q → ∀ r, ¬q.Deletes r

theorem Op.sparing_of_plain {op : Op} (h : op.plain = true) : op.sparing := by
  rintro q rfl r
  cases q <;> first | exact id | cases h

theorem Held.exec {settings : Settings} {mrIid : ℕ} {choice : Choice} {op : Op} {w w' : World}
    {answer : Except PyError op.Answer} (h : Held settings mrIid w.db) (hop : op.sparing)
    (hexec : World.exec settings.qm 0 choice op w = some (answer, w')) :
    Held settings mrIid w'.db := by
  rcases World.exec_db_cases hexec with hsame | ⟨q, a, rfl, hcall⟩
  · rw [hsame]
    exact h
  · obtain ⟨r, hr, hsome⟩ := h
    obtain ⟨hmem, hkey⟩ := KeyedTable.byKey_eq_some_iff.mp hr
    obtain ⟨r', hr', -, hproject, hiid, hchange⟩ := exec_row hcall hmem (hop q rfl r)
    refine ⟨r', KeyedTable.byKey_eq_some_iff.mpr ⟨hr', ?_⟩, ?_⟩
    · simp only [key_mergeRequestRow, hproject, hiid]
      exact hkey
    · rcases QueueOp.pendingCompletion_of_rowChange hchange with
        heq | ⟨_, _, _, -, hnew⟩ | ⟨_, _, _, -, -, hnew⟩
      · rw [heq, hsome]
      · rw [hnew, Option.isSome_some]
      · exact hnew

section Completion

variable {settings : Settings} {s : Local} {log : List Op} {w : World} {row : MergeRequestRow}
  {item : QueueItem} {payload : CompletionPayload} {mrIid : ℕ}

theorem finishes_holding {α : Type} {p : Prog α}
    (hp : p.Calm settings NotificationsFree Op.sparing) (hfree : NotificationsFree w.locks)
    (hheld : Held settings mrIid w.db) :
    p.Finishes (alone settings) s log w fun _ s' _ w' ↦
      (Held settings mrIid w'.db ∧ NotificationsFree w'.locks) ∧ s' = s :=
  (hp (fun _ w ↦ Held settings mrIid w.db)
    (fun _ _ _ _ _ _ hop _ hexec h ↦ h.exec hop hexec) s log w hfree hheld).mono
    fun _ _ _ _ h ↦ ⟨⟨h.1, h.2.1 ▸ hfree⟩, h.2.2⟩

/-- Only a cancellation ends the repair of feedback, and nothing cancels a task here. -/
theorem finishes_retryItem (hfree : NotificationsFree w.locks) :
    Finishes (alone settings) (QueuePositionNotifier.retryItem settings item) s log w
      fun result _ _ w' ↦ NotificationsFree w'.locks ∧
        ∀ e, result = .error e → e.isException = false := by
  unfold QueuePositionNotifier.retryItem
  cases item.pendingNotification with
  | none => exact Finishes.ret ⟨hfree, fun e h ↦ by cases h⟩
  | some pending =>
      have hnotify := @calm_notifyIfQueued settings (fun _ ↦ True)
        (fun _ _ ↦ trivial) item.mrIid pending.status
        [("old_position", .number pending.oldPosition),
          ("old_total", .number (pending.oldTotal.getD 0))] (some pending)
      refine Finishes.handle ((hnotify (fun _ _ ↦ True) (fun _ _ _ _ _ _ _ _ _ _ ↦ trivial) s log
        w hfree trivial).mono fun result s' log' w' h ↦ ?_)
      have hfree' : NotificationsFree w'.locks := h.2.1 ▸ hfree
      cases result with
      | ok a => exact ⟨hfree', fun e h ↦ by cases h⟩
      | error e =>
          simp only
          split_ifs with hexception
          · exact Finishes.ret ⟨hfree', fun e h ↦ by cases h⟩
          · refine Finishes.throw ⟨hfree', ?_⟩
            rintro _ ⟨⟩
            simpa using hexception

theorem finishes_broadcast {post : Except PyError Unit → Local → List Op → World → Prop}
    (h : ∀ log', post (.ok ()) s log' w) :
    Finishes (alone settings) (broadcast settings) s log w post := by
  unfold broadcast
  split_ifs
  · refine Finishes.call fun choice hfault ↦ ?_
    have hfault : choice.fault = none := hfault
    exact ⟨_, _, by simp only [alone, World.exec, hfault], h _⟩
  · exact Finishes.ret (h _)

theorem finishes_afterCompletion (hfree : NotificationsFree w.locks) :
    Finishes (alone settings) (QueueCompletion.afterCompletion settings payload) s log w
      fun result _ _ _ ↦ ∀ e, result = .error e → e.isException = false := by
  have hbroadcast : ∀ s log w, Finishes (alone settings) (broadcast settings) s log w
      fun result _ _ _ ↦ ∀ e, result = .error e → e.isException = false :=
    fun s log w ↦ finishes_broadcast fun _ e h ↦ by cases h
  unfold QueueCompletion.afterCompletion
  split
  · refine Finishes.bind (Finishes.bind (finishes_db fun _ _ ↦ ?_))
    refine Finishes.bind (finishes_db fun _ _ ↦ ?_)
    refine Finishes.forEach (I := fun _ _ w ↦ NotificationsFree w.locks) ?_ hfree
      fun s log w _ ↦ hbroadcast s log w
    intro item _ s log w hfree
    refine (finishes_retryItem hfree).mono fun result s' log' w' h ↦ ?_
    cases result with
    | ok a => exact h.1
    | error e => exact h.2
  · exact hbroadcast s log w

/-- Where finishing a lifecycle raises, the outcome is still frozen. -/
theorem finishes_finish_held (hpending : item.pendingCompletion = some payload)
    (hfree : NotificationsFree w.locks) (hheld : Held settings mrIid w.db) :
    Finishes (alone settings) (QueueCompletion.finish settings item) s log w
      fun result _ _ w' ↦ ∀ e, result = .error e → e.isException = true →
        Held settings mrIid w'.db := by
  have hplain : ∀ op : Op, op.plain = true → op.sparing := fun op ↦ Op.sparing_of_plain
  have hsave : ∀ payload, Op.sparing
      (.db (.saveCompletionProgress settings.gitlabProjectId item.queueId payload)) := by
    rintro payload q ⟨⟩ r
    exact id
  simp only [QueueCompletion.finish, hpending]
  refine Finishes.bind ((finishes_holding (QueueCompletion.calm_deliverComment hplain hsave payload
    (fun q hq ↦ by cases hq)) hfree hheld).mono fun result s₁ log₁ w₁ h ↦ ?_)
  obtain ⟨⟨hheld₁, hfree₁⟩, rfl⟩ := h
  cases result with
  | error e => exact fun _ _ _ ↦ hheld₁
  | ok payload₁ =>
      refine Finishes.bind ((finishes_holding (QueueCompletion.calm_cleanup hplain hsave payload₁)
        hfree₁ hheld₁).mono fun result s₂ log₂ w₂ h ↦ ?_)
      obtain ⟨⟨hheld₂, hfree₂⟩, rfl⟩ := h
      cases result with
      | error e => exact fun _ _ _ ↦ hheld₂
      | ok payload₂ =>
          refine Finishes.bind (finishes_db fun _ _ ↦ ?_)
          simp only [QueueOp.exec, Except.mapError, Except.map]
          split
          · exact Finishes.ret fun e h ↦ by cases h
          · next current _ =>
              split_ifs
              · refine Finishes.bind ((finishes_holding (QueueCompletion.calm_settleRequeue hplain
                  hsave payload₂ current.requeueRequest) hfree₂ hheld₂).mono
                  fun result s₃ log₃ w₃ h ↦ ?_)
                obtain ⟨⟨hheld₃, hfree₃⟩, rfl⟩ := h
                cases result with
                | error e => exact fun _ _ _ ↦ hheld₃
                | ok payload₃ =>
                    refine Finishes.bind (finishes_db fun now tokens ↦ ?_)
                    cases houtcome : QueueOp.exec settings.qm now tokens
                        (.finalizeCompletion settings.gitlabProjectId current payload₃) w₃.db with
                    | error e => exact fun _ _ _ ↦ hheld₃
                    | ok out =>
                        obtain ⟨done, db'⟩ := out
                        cases done with
                        | false => exact Finishes.ret fun e h ↦ by cases h
                        | true =>
                            refine Finishes.mono (finishes_afterCompletion hfree₃)
                              fun result s₄ log₄ w₄ h ↦ ?_
                            intro e he hexception
                            rw [h e he] at hexception
                            cases hexception
              · exact Finishes.ret fun e h ↦ by cases h

/-- What an operation freezes or archives the outcome of a lifecycle as. -/
def Op.archives : Op → Option HistoryStatus
  | .db (.prepareCompletion _ _ request) => some request.outcome.historyStatus
  | .db (.finalizeCompletion _ _ payload) => some payload.history.status
  | .db (.completeMr _ _ outcome _) => some outcome.historyStatus
  | _ => none

theorem Op.archives_of_plain {op : Op} (h : op.plain = true) : op.archives = none := by
  unfold Op.archives
  split <;> first | rfl | cases h

/-- Nothing is frozen or archived otherwise than as `status`. -/
def ArchivesOnly (status : HistoryStatus) (log : List Op) : Prop :=
  ∀ op ∈ log, ∀ st ∈ op.archives, st = status

/-- Nothing is frozen or archived. -/
def ArchivesNothing (log : List Op) : Prop := ∀ op ∈ log, op.archives = none

theorem ArchivesNothing.concat {op : Op} (h : ArchivesNothing log) (hop : op.archives = none) :
    ArchivesNothing (log ++ [op]) := by
  intro other hother
  rcases List.mem_append.mp hother with hold | hnew
  · exact h other hold
  · rw [List.mem_singleton.mp hnew]
    exact hop

theorem ArchivesNothing.only (h : ArchivesNothing log) (status : HistoryStatus) :
    ArchivesOnly status log := by
  intro op hop st hst
  rw [h op hop] at hst
  cases hst

theorem ArchivesOnly.concat {status : HistoryStatus} {op : Op} (h : ArchivesOnly status log)
    (hop : ∀ st ∈ op.archives, st = status) : ArchivesOnly status (log ++ [op]) := by
  intro other hother
  rcases List.mem_append.mp hother with hold | hnew
  · exact h other hold
  · rw [List.mem_singleton.mp hnew]
    exact hop

theorem ArchivesOnly.plain {status : HistoryStatus} {op : Op} (h : ArchivesOnly status log)
    (hop : op.plain = true) : ArchivesOnly status (log ++ [op]) :=
  h.concat fun st hst ↦ by
    rw [Op.archives_of_plain hop] at hst
    cases hst

theorem Op.archives_of_finishing {frozen : CompletionPayload} {op : Op}
    (h : op.Finishing settings item frozen) : ∀ st ∈ op.archives, st = frozen.history.status := by
  intro st hst
  cases h with
  | plain hplain =>
      rw [Op.archives_of_plain hplain] at hst
      cases hst
  | comment | progress => cases hst
  | archive hid hcontinues =>
      cases hst
      rw [CompletionPayload.history_of_continues hcontinues]

/-- A row whose outcome is frozen is held. -/
theorem prepareCompletion_holds {request : CompletionRequest} {db : Database} (now : ℤ)
    (hrow : db.row settings.gitlabProjectId mrIid = some row)
    (hopen : row.pendingCompletion = none) (hguard : ∀ id ∈ request.queueId, id = row.id) :
    ∃ item payload db',
      QueueManager.prepareCompletion settings.gitlabProjectId mrIid request now db =
        .ok (some item, db') ∧
      item.pendingCompletion = some payload ∧
      payload.history.status = request.outcome.historyStatus ∧ Held settings mrIid db' := by
  obtain ⟨db', hout, -, hrows⟩ := prepareCompletion_freezes now hrow hopen hguard
  exact ⟨_, _, db', hout, rfl, rfl, preparedRow request now row, row_of_prepared hrow hrows, rfl⟩

/-- An open row is completed as the request says; where that raises, its outcome is still
frozen. -/
theorem finishes_complete_open {request : CompletionRequest} {status : HistoryStatus}
    (hlocks : w.locks = []) (hrow : w.db.row settings.gitlabProjectId mrIid = some row)
    (hopen : row.pendingCompletion = none) (hguard : ∀ id ∈ request.queueId, id = row.id)
    (hstatus : request.outcome.historyStatus = status) (hlog : ArchivesOnly status log) :
    Finishes (alone settings) (QueueCompletion.complete settings mrIid request) s log w
      fun result s' log' w' ↦ s'.machine = s.machine ∧ ArchivesOnly status log' ∧
        (∃ op ∈ log', op.archives = some status) ∧
        ∀ e, result = .error e → e.isException = true → Held settings mrIid w'.db := by
  let prepare : Op := .db (.prepareCompletion settings.gitlabProjectId mrIid request)
  have hprepare : prepare.archives = some status := by
    rw [← hstatus]
    rfl
  refine Finishes.bind (finishes_acquire (held_eq_false (by simp [hlocks])) ?_)
  refine Finishes.ensuring (Finishes.bind ?_)
  refine Finishes.bind (finishes_acquire (held_eq_false (by simp [hlocks])) ?_)
  refine Finishes.ensuring (finishes_db fun now tokens ↦ finishes_release ?_)
  obtain ⟨item, payload, db', houtcome, hpending, hhistory, hheld⟩ :=
    prepareCompletion_holds now hrow hopen hguard
  simp only [QueueOp.exec, houtcome, committed_ok]
  refine Finishes.bind (Finishes.update ?_)
  have hstart : ArchivesOnly status (log ++ [.acquire (.completion settings.gitlabProjectId mrIid)]
      ++ [.acquire (.notification settings.gitlabProjectId mrIid)] ++ [prepare] ++
      [.release (.notification settings.gitlabProjectId mrIid)]) := by
    refine ArchivesOnly.plain (ArchivesOnly.concat (ArchivesOnly.plain
      (hlog.concat fun st hst ↦ by cases hst) rfl) fun st hst ↦ ?_) rfl
    rw [hprepare] at hst
    exact (Option.some.inj hst).symm
  let asked := log ++ [.acquire (.completion settings.gitlabProjectId mrIid)] ++
    [.acquire (.notification settings.gitlabProjectId mrIid)] ++ [prepare] ++
    [.release (.notification settings.gitlabProjectId mrIid)]
  let prepared : World := { w with
    db := db'
    locks := List.filter (· ≠ (.notification settings.gitlabProjectId mrIid, 0))
      ((.notification settings.gitlabProjectId mrIid, 0) ::
        (.completion settings.gitlabProjectId mrIid, 0) :: w.locks) }
  have hfree : NotificationsFree prepared.locks := by simp [prepared, NotificationsFree, hlocks]
  have hfinish := (@finishes_finish_held settings { s with view := item.state } asked prepared item
    payload mrIid hpending hfree hheld).keeps
    (QueueCompletion.leaves_finish hpending)
    (K := fun log _ ↦ ArchivesOnly status log ∧ ∃ op ∈ log, op.archives = some status) ?_ ?_
  · refine hfinish.mono fun result s' log' w' h ↦ finishes_release ?_
    obtain ⟨herror, ⟨honly, op, hop, harchives⟩, rfl⟩ := h
    have hrelease : ArchivesOnly status
        (log' ++ [.release (.completion settings.gitlabProjectId mrIid)]) :=
      honly.concat fun st hst ↦ by cases hst
    have hasked : ∃ op ∈ log' ++ [.release (.completion settings.gitlabProjectId mrIid)],
        op.archives = some status := ⟨op, List.mem_append_left _ hop, harchives⟩
    cases result with
    | ok a => exact ⟨rfl, hrelease, hasked, fun e h ↦ by cases h⟩
    | error e => exact ⟨rfl, hrelease, hasked, herror⟩
  · intro op choice log w answer w' hop _ _ hK
    refine ⟨hK.1.concat fun st hst ↦ ?_, ?_⟩
    · rw [Op.archives_of_finishing hop st hst, hhistory, hstatus]
    · obtain ⟨other, hother, harchives⟩ := hK.2
      exact ⟨other, List.mem_append_left _ hother, harchives⟩
  · refine ⟨hstart, prepare, List.mem_append_left _ ?_, hprepare⟩
    exact List.mem_append_right _ (List.mem_singleton_self _)

end Completion

/-! ## The outcome of a merge step -/

/-- The merge step of the open row `row` is about to make its call. -/
structure Merging (settings : Settings) (mrIid : ℕ) (row : MergeRequestRow) (s : Local)
    (w : World) : Prop where
  locks : w.locks = []
  present : w.db.row settings.gitlabProjectId mrIid = some row
  open_ : row.pendingCompletion = none
  machine : ∃ m, s.machine = some m ∧ m.projectId = settings.gitlabProjectId ∧
    m.mrIid = mrIid ∧ m.current = .merging ∧ m.skipInitialEnter = false ∧
    ∀ id ∈ m.queueId, id = row.id

/-- The lifecycle is recorded as merged, and nothing else is recorded. -/
structure MergeKept (log : List Op) : Prop where
  only : ArchivesOnly .merged log
  recorded : ∃ op ∈ log, op.archives = some .merged

section Step

variable {settings : Settings} {s : Local} {log : List Op} {w : World} {row : MergeRequestRow}
  {mrIid : ℕ} {message : String}

theorem finishes_triggerMergeFailed (h : Merging settings mrIid row s w)
    (hlog : ArchivesOnly .mergeFailed log) :
    Finishes (alone settings) (MRStateMachine.triggerMergeFailed settings message) s log w
      fun _ _ log' _ ↦ ∃ op ∈ log', op.archives = some .mergeFailed := by
  obtain ⟨m, hm, -, rfl, hcurrent, hskip, hguard⟩ := h.machine
  refine Finishes.bind (finishes_setContext hm ?_)
  refine @finishes_fire settings _ _ _ _ .mergeFailed .failed _ rfl (by rw [hcurrent]; rfl) ?_
  refine finishes_onEnterFailed (fun log op hop h ↦ h.plain hop) hlog hskip rfl (by simp) ?_
  intro request log' _ _ _ _ hqueueId hstatus hlog'
  refine (finishes_complete_open h.locks h.present h.open_ ?_ hstatus hlog').mono
    fun _ _ _ _ h ↦ h.2.2.1
  rw [hqueueId]
  exact hguard

theorem finishes_triggerMergeSuccess (h : Merging settings mrIid row s w)
    (hlog : ArchivesOnly .merged log) :
    Finishes (alone settings) (MRStateMachine.triggerMergeSuccess settings) s log w
      fun result s' log' w' ↦ (∃ m, s'.machine = some m ∧ m.current = .merged) ∧
        ArchivesOnly .merged log' ∧ (∃ op ∈ log', op.archives = some .merged) ∧
        ∀ e, result = .error e → e.isException = true → Held settings mrIid w'.db := by
  obtain ⟨m, hm, -, rfl, hcurrent, hskip, hguard⟩ := h.machine
  refine @finishes_fire settings _ _ _ _ .mergeSuccess .merged _ hm (by rw [hcurrent]; rfl) ?_
  simp only [MRStateMachine.onEnter, hskip, Bool.false_eq_true, if_false,
    MRStateMachine.onEnterMerged]
  refine Finishes.bind (finishes_db fun _ _ ↦ Finishes.bind (finishes_now fun mergedAt ↦ ?_))
  refine Finishes.bind (finishes_now fun finish ↦ Finishes.bind ?_)
  refine finishes_capture (K := ArchivesOnly .merged) (fun log op hop h ↦ h.plain hop)
    (((hlog.plain rfl).plain rfl).plain rfl) fun out log' hlog' ↦ ?_
  refine (finishes_complete_open h.locks h.present h.open_ ?_ rfl hlog').mono
    fun result s' log' w' h ↦ ⟨⟨_, h.1, rfl⟩, h.2⟩
  exact hguard

/-- An update of an open row. -/
theorem updateMrState_of_open {projectId : ℕ} {db : Database} (state : Status) (extra : Extra)
    (now : ℤ) (hrow : db.row projectId mrIid = some row)
    (hopen : row.pendingCompletion = none) :
    ∃ db', updateMrState projectId mrIid state extra now db = .ok (true, db') ∧
      db'.row projectId mrIid = some (updatedRow state extra now row) := by
  obtain ⟨hmem, hkey⟩ := KeyedTable.byKey_eq_some_iff.mp hrow
  simp only [key_mergeRequestRow, Prod.mk.injEq] at hkey
  have hany : (db.mergeRequests.rows.any fun r ↦ decide (r.iid = mrIid) &&
      decide (r.projectId = projectId) && r.pendingCompletion.isNone) = true :=
    List.any_eq_true.mpr ⟨row, hmem, by simp [hkey, hopen]⟩
  refine ⟨_, if_pos hany, ?_⟩
  change KeyedTable.byKey (KeyedTable.updateWhere ..) _ = _
  rw [KeyedTable.byKey_updateWhere]
  change Option.map _ (db.row projectId mrIid) = _
  rw [hrow]
  simp [hkey, hopen]

/-- The row stays open. -/
theorem finishes_updateMrState {state : Status} {extra : Extra}
    {post : Except PyError Unit → Local → List Op → World → Prop}
    (hrow : w.db.row settings.gitlabProjectId mrIid = some row)
    (hopen : row.pendingCompletion = none)
    (h : ∀ db' row' s', db'.row settings.gitlabProjectId mrIid = some row' →
      row'.pendingCompletion = none →
      post (.ok ()) s' (log ++ [.db (.updateMrState settings.gitlabProjectId mrIid state extra)])
        { w with db := db' }) :
    Finishes (alone settings) (Prog.updateMrState settings.gitlabProjectId mrIid state extra) s
      log w post := by
  refine Finishes.bind (finishes_db fun now tokens ↦ ?_)
  obtain ⟨db', hupdate, hrow'⟩ := updateMrState_of_open state extra now hrow hopen
  simp only [QueueOp.exec, hupdate, committed_ok]
  exact Finishes.update (h db' _ _ hrow' hopen)

theorem finishes_requeueAfterError (h : Merging settings mrIid row s w) (attempts : ℕ)
    (hlog : ArchivesNothing log) :
    Finishes (alone settings) (MergeProcessor.requeueAfterError settings mrIid attempts) s log w
      fun _ _ log' _ ↦ ArchivesNothing log' := by
  obtain ⟨m, hm, hproject, rfl, hcurrent, hskip, -⟩ := h.machine
  have hreset : MRStateMachine.transition .resetToQueued m.current = some .queued := by
    rw [hcurrent]
    rfl
  refine Finishes.bind ?_
  refine Finishes.bind (Finishes.bind (Finishes.read (Finishes.ret ?_)))
  simp only [hm]
  refine Finishes.bind (finishes_machine hm (Finishes.bind (Finishes.update (Finishes.bind ?_))))
  refine finishes_fire rfl hreset ?_
  simp only [MRStateMachine.onEnter, hskip, Bool.false_eq_true, if_false,
    MRStateMachine.onEnterQueued, if_true]
  refine Finishes.update ?_
  simp only [hproject]
  refine finishes_updateMrState h.present h.open_ fun db₁ row₁ s₁ hrow₁ hopen₁ ↦ ?_
  refine finishes_updateMrState hrow₁ hopen₁ fun db₂ row₂ s₂ _ _ ↦ ?_
  exact (hlog.concat rfl).concat rfl

/-- The handler leaves a frozen outcome alone. -/
theorem finishes_handleRaised_held {e : PyError} (hheld : Held settings mrIid w.db)
    (hlog : ArchivesOnly .merged log) (hasked : ∃ op ∈ log, op.archives = some .merged) :
    Finishes (alone settings) (MergeProcessor.handleRaised settings mrIid e) s log w
      fun _ _ log' _ ↦ MergeKept log' := by
  obtain ⟨r, hr, hsome⟩ := hheld
  obtain ⟨op, hop, harchives⟩ := hasked
  refine Finishes.bind (Finishes.handle (Finishes.bind (finishes_db fun now tokens ↦ ?_)))
  simp only [QueueOp.exec, Except.mapError, Except.map, Database.selectQueueItem, hr,
    Option.map_some, rowToQueueItem_pendingCompletion, hsome, if_true]
  exact Finishes.ret (Finishes.ret
    ⟨hlog.plain rfl, ⟨op, List.mem_append_left _ hop, harchives⟩⟩)

theorem afterMerge_of_ok (h : Merging settings mrIid row s w) (mr : MergeRequest)
    (hlog : ArchivesOnly .merged log) :
    Finishes (alone settings) (MergeProcessor.afterMerge settings mrIid (.ok mr)) s log w
      fun _ _ log' _ ↦ MergeKept log' := by
  refine Finishes.handle (Finishes.handle (Finishes.bind (Finishes.ret (Finishes.bind ?_))))
  refine (finishes_triggerMergeSuccess h hlog).mono fun result s' log' w' hr ↦ ?_
  obtain ⟨⟨m, hm, hmerged⟩, honly, hasked, hheld⟩ := hr
  have hrest : ∀ (e : PyError) (s : Local), (e.isException = true → Held settings mrIid w'.db) →
      Finishes (alone settings)
        (if e.isException then MergeProcessor.handleRaised settings mrIid e else throw e) s log' w'
        fun _ _ log' _ ↦ MergeKept log' := by
    intro e s he
    split_ifs with hexception
    · exact finishes_handleRaised_held (he hexception) honly hasked
    · exact Finishes.throw ⟨honly, hasked⟩
  cases result with
  | ok a => exact Finishes.ret ⟨honly, hasked⟩
  | error e =>
      -- the machine has left the state in which a failure could be told
      have htold : ∀ (message : String) (r : ProcessingResult), e.isException = true →
          Finishes (alone settings)
            (do
              MRStateMachine.triggerMergeFailed settings message
              return r) s' log' w' fun result s₂ log₂ w₂ ↦
              match result with
              | .ok _ => MergeKept log₂
              | .error e =>
                  Finishes (alone settings)
                    (if e.isException then MergeProcessor.handleRaised settings mrIid e
                    else throw e) s₂ log₂ w₂ fun _ _ log' _ ↦ MergeKept log' := by
        intro message r hexception
        refine Finishes.bind (Finishes.bind (finishes_setContext hm ?_))
        refine Finishes.bind (finishes_machine rfl ?_)
        simp only [hmerged, MRStateMachine.transition]
        exact Finishes.throw (hrest _ _ fun _ ↦ hheld e rfl hexception)
      change Finishes (alone settings) (MergeProcessor.failMerge settings e) s' log' w' _
      unfold MergeProcessor.failMerge
      split_ifs with htimeout hgitlab
      · refine (htold _ _ (by rw [htimeout]; rfl)).mono fun result _ _ _ h ↦ ?_
        cases result <;> exact h
      · have hexception : e.isException = true := by cases e <;> first | rfl | cases hgitlab
        refine (htold _ _ hexception).mono fun result _ _ _ h ↦ ?_
        cases result <;> exact h
      · exact Finishes.throw (hrest e _ (hheld e rfl))

/-- An exception of the client that tells nothing about the merge request puts it back: the
lifecycle is recorded in a later attempt, as what that attempt makes of it. -/
theorem afterMerge_of_unclear (h : Merging settings mrIid row s w) {e : PyError}
    (htimeout : e ≠ .timeoutError) (hgitlab : e.isGitLab = false)
    (hexception : e.isException = true)
    (hattempts : row.processingAttempts + 1 < settings.maxProcessingAttempts)
    (hlog : ArchivesNothing log) :
    Finishes (alone settings) (MergeProcessor.afterMerge settings mrIid (.error e)) s log w
      fun _ _ log' _ ↦ ArchivesNothing log' := by
  refine Finishes.handle (Finishes.handle (Finishes.bind (Finishes.throw ?_)))
  simp only [MergeProcessor.failMerge, htimeout, hgitlab, Bool.false_eq_true, if_false]
  refine Finishes.throw ?_
  simp only [hexception, if_true]
  refine Finishes.bind (Finishes.handle (Finishes.bind (finishes_db fun now tokens ↦ ?_)))
  have hitem : w.db.selectQueueItem settings.gitlabProjectId mrIid = some (rowToQueueItem row) := by
    simp only [Database.selectQueueItem, h.present, Option.map_some]
  have hpending : (rowToQueueItem row).pendingCompletion.isSome = false := by
    simp only [rowToQueueItem_pendingCompletion, h.open_, Option.isSome_none]
  have hless : ¬settings.maxProcessingAttempts ≤ (rowToQueueItem row).processingAttempts + 1 := by
    rw [rowToQueueItem_processingAttempts]
    omega
  simp only [QueueOp.exec, hitem, hpending, Bool.false_eq_true, if_false, hless, Except.mapError,
    Except.map]
  refine (finishes_requeueAfterError h _ (hlog.concat rfl)).mono fun result s' log' w' hr ↦ ?_
  cases result with
  | ok a => exact Finishes.ret hr
  | error e =>
      simp only
      split_ifs
      · exact Finishes.ret (Finishes.ret hr)
      · exact Finishes.throw hr

/-! ### Where a failure is recorded -/

theorem not_mergeKept {log₁ log₂ : List Op}
    (h : ∃ op ∈ log₁, op.archives = some .mergeFailed) (hgrows : log₁ <+: log₂)
    (hkept : MergeKept log₂) : False := by
  obtain ⟨op, hop, harchives⟩ := h
  cases hkept.only op (hgrows.subset hop) _ harchives

theorem exists_fair : ∃ choice, (alone settings).fair choice :=
  ⟨{ gitlab := answersFor (waitingMr 7) }, rfl⟩

theorem not_kept_of_unclear (h : Merging settings mrIid row s w) {e : PyError}
    (htimeout : e ≠ .timeoutError) (hgitlab : e.isGitLab = false)
    (hexception : e.isException = true)
    (hattempts : row.processingAttempts + 1 < settings.maxProcessingAttempts)
    (hlog : ArchivesNothing log) :
    ¬Finishes (alone settings) (MergeProcessor.afterMerge settings mrIid (.error e)) s log w
      fun _ _ log' _ ↦ MergeKept log' := by
  intro hkept
  obtain ⟨_, _, log', _, hkept, hnothing⟩ := Interleave.Task.Finishes.exists exists_fair hkept
    (afterMerge_of_unclear h htimeout hgitlab hexception hattempts hlog)
  obtain ⟨op, hop, harchives⟩ := hkept.recorded
  rw [hnothing op hop] at harchives
  cases harchives

theorem not_kept_of_refused (h : Merging settings mrIid row s w) {e : PyError}
    (he : e = .timeoutError ∨ e.isGitLab = true) (hlog : ArchivesOnly .mergeFailed log) :
    ¬Finishes (alone settings) (MergeProcessor.afterMerge settings mrIid (.error e)) s log w
      fun _ _ log' _ ↦ MergeKept log' := by
  intro hkept
  have hfail : Finishes (alone settings) (MergeProcessor.failMerge settings e) s log w
      fun _ _ log' _ ↦ ∃ op ∈ log', op.archives = some .mergeFailed := by
    have htold : ∀ (message : String) (r : ProcessingResult), Finishes (alone settings)
        (do
          MRStateMachine.triggerMergeFailed settings message
          return r) s log w
        fun _ _ log' _ ↦ ∃ op ∈ log', op.archives = some .mergeFailed := by
      intro message r
      refine Finishes.bind ((finishes_triggerMergeFailed h hlog).mono fun result _ _ _ hr ↦ ?_)
      cases result with
      | ok a => exact Finishes.ret hr
      | error e => exact hr
    unfold MergeProcessor.failMerge
    split_ifs with htimeout hgitlab
    · exact htold _ _
    · exact htold _ _
    · exact absurd he (by simp [htimeout, hgitlab])
  obtain ⟨_, _, _, _, _, _, _, _, hasked, hpost, hgrows⟩ :=
    Interleave.Task.Finishes.passes exists_fair hkept hfail
  exact not_mergeKept hasked hgrows hpost

theorem not_kept_of_last (h : Merging settings mrIid row s w) {e : PyError}
    (htimeout : e ≠ .timeoutError) (hgitlab : e.isGitLab = false)
    (hexception : e.isException = true)
    (hattempts : settings.maxProcessingAttempts ≤ row.processingAttempts + 1)
    (hlog : ArchivesOnly .mergeFailed log) :
    ¬Finishes (alone settings) (MergeProcessor.afterMerge settings mrIid (.error e)) s log w
      fun _ _ log' _ ↦ MergeKept log' := by
  intro hkept
  obtain ⟨m, hm, hproject, rfl, hcurrent, hskip, hguard⟩ := h.machine
  have hlast : LastAttempt settings m.mrIid row s w :=
    { locks := h.locks
      present := h.present
      open_ := h.open_
      last := hattempts
      machine := fun m' hm' ↦ by
        cases hm.symm.trans hm'
        exact ⟨rfl, hskip⟩ }
  have hhandled : Finishes (alone settings)
      (MergeProcessor.handleProcessingError settings m.mrIid e) s log w
      fun _ _ log' _ ↦ ∃ op ∈ log', op.archives = some .mergeFailed := by
    refine finishes_handleProcessingError hlast fun message ↦ ?_
    refine Finishes.bind (Finishes.bind (Finishes.read (Finishes.ret ?_)))
    rw [hm]
    refine Finishes.bind (finishes_machine hm ?_)
    simp only [hcurrent]
    exact finishes_triggerMergeFailed h (hlog.plain rfl)
  have hraised : MergeProcessor.afterMerge settings m.mrIid (.error e) s =
      MergeProcessor.handleRaised settings m.mrIid e s := by
    have hfail : MergeProcessor.failMerge settings e = throw e := by
      simp only [MergeProcessor.failMerge, htimeout, hgitlab, Bool.false_eq_true, if_false]
    have hcaught : MergeProcessor.afterMerge settings m.mrIid (.error e) s =
        catching PyError.isException (MergeProcessor.failMerge settings e)
          (MergeProcessor.handleRaised settings m.mrIid) s := rfl
    have hhandler : catching PyError.isException (throw e : Prog ProcessingResult)
        (MergeProcessor.handleRaised settings m.mrIid) s =
        (if e.isException = true then MergeProcessor.handleRaised settings m.mrIid e
          else throw e) s := rfl
    rw [hcaught, hfail, hhandler, if_pos hexception]
  have hreached : Finishes (alone settings)
      (catching PyError.isException (MergeProcessor.handleProcessingError settings m.mrIid e)
        fun _ ↦ pure ()) s log w
      fun _ _ log' _ ↦ ∃ op ∈ log', op.archives = some .mergeFailed := by
    refine Finishes.handle (hhandled.mono fun result _ _ _ hr ↦ ?_)
    cases result with
    | ok a => exact hr
    | error e =>
        simp only
        split_ifs
        · exact Finishes.ret hr
        · exact Finishes.throw hr
  rw [Finishes, hraised] at hkept
  obtain ⟨_, _, _, _, _, _, _, _, hasked, hpost, hgrows⟩ :=
    Interleave.Task.Finishes.passes exists_fair hkept hreached
  exact not_mergeKept hasked hgrows hpost

end Step

/-! ## Truth of the record -/

/-- GitLab performed a merge that was requested. -/
def Performed (sent : List Sent) : Prop := ∃ x ∈ sent, x.merged ≠ none

instance (sent : List Sent) : Decidable (Performed sent) :=
  inferInstanceAs (Decidable (∃ x ∈ sent, x.merged ≠ none))

/-- The last answer arrives in time and tells of the merge. -/
def TellsMerge (sent : List Sent) (cut : Option ℕ) : Prop :=
  cut = none ∧ lastVerdict sent = .merged

/-- What the merge step asks for until its call returns. -/
def mergeAsked (settings : Settings) (mrIid : ℕ) (row : MergeRequestRow) : List Op :=
  [.db (.getQueueItem settings.gitlabProjectId mrIid), .gitlab (.mergeMr mrIid row.expectedSha)]

theorem archivesNothing_mergeAsked (settings : Settings) (mrIid : ℕ) (row : MergeRequestRow) :
    ArchivesNothing (mergeAsked settings mrIid row) := by
  intro op hop
  simp only [mergeAsked, List.mem_cons, List.not_mem_nil, or_false] at hop
  rcases hop with rfl | rfl <;> rfl

section Record

variable {settings : Settings} {mrIid : ℕ} {row : MergeRequestRow} {s : Local} {w : World}

/-- A performed merge is kept exactly where the last answer tells of it. -/
theorem mergeKept_iff (client : ClientSettings) (h : Merging settings mrIid row s w)
    {cw : ClientWorld} (hstart : cw.trace = []) (cut : Option ℕ) :
    (Finishes (alone settings) (MergeProcessor.afterMerge settings mrIid
        (answered (mergeMr client reraising mrIid row.expectedSha cw) cut).1) s
        (mergeAsked settings mrIid row) w fun _ _ log _ ↦ MergeKept log) ↔
      TellsMerge (answered (mergeMr client reraising mrIid row.expectedSha cw) cut).2 cut := by
  have hnothing := archivesNothing_mergeAsked settings mrIid row
  have hfailed := hnothing.only .mergeFailed
  cases cut with
  | some cut =>
      refine iff_of_false (not_kept_of_refused h (Or.inl rfl) hfailed) ?_
      rintro ⟨hnone, -⟩
      cases hnone
  | none =>
      have hverdict := mergeAttempts_verdict client (w := cw) mrIid row.expectedSha
        client.mergeStatusRetryMax (by rw [hstart]; rfl)
      have hlast : lastVerdict (answered (mergeMr client reraising mrIid row.expectedSha cw)
          none).2 = lastVerdict (mergeMr client reraising mrIid row.expectedSha cw).2.trace := rfl
      rw [TellsMerge, hlast]
      simp only [answered, true_and]
      unfold mergeMr
      rw [hverdict]
      generalize (mergeAttempts client reraising mrIid row.expectedSha
        client.mergeStatusRetryMax cw).1 = result
      cases result with
      | ok mr => exact iff_of_true (afterMerge_of_ok h mr (hnothing.only .merged)) rfl
      | error e =>
          have hmerged : e.verdict ≠ .merged := by cases e <;> simp [ClientError.verdict]
          refine iff_of_false ?_ hmerged
          by_cases hgitlab : e.raised.isGitLab = true
          · exact not_kept_of_refused h (Or.inr hgitlab) hfailed
          · have hother : e.raised.isGitLab = false := by simpa using hgitlab
            have hunclear : e.raised ≠ .timeoutError ∧ e.raised.isException = true := by
              cases e with
              | gitlab e => exact absurd rfl hgitlab
              | transport | malformedBody => exact ⟨by simp [ClientError.raised], rfl⟩
            obtain ⟨htimeout, hexception⟩ := hunclear
            by_cases hattempts : row.processingAttempts + 1 < settings.maxProcessingAttempts
            · exact not_kept_of_unclear h htimeout hother hexception hattempts hnothing
            · exact not_kept_of_last h htimeout hother hexception (by omega) hfailed

end Record

/-! ### A merge that is answered with a server error -/

def mergingSettings : Settings where
  gitlabProjectId := 1
  rounds := 1

def mergingRow : MergeRequestRow :=
  updatedRow .merging { expectedSha := some (some "tested") } 0 sampleRow

def mergingWorld : World where
  db := committed .empty
    (updateMrState 1 7 .merging { expectedSha := some (some "tested") } 0 sampleDatabase)

def mergingLocal : Local where
  machine := some
    { projectId := 1, mrIid := 7, targetBranch := "master", queueId := some 1, current := .merging }

theorem merging_sample : Merging mergingSettings 7 mergingRow mergingLocal mergingWorld where
  locks := rfl
  present := by decide +kernel
  open_ := rfl
  machine := ⟨_, rfl, rfl, rfl, rfl, rfl, fun id hid ↦ (Option.some.inj hid).symm⟩

/-- The read reports the tested head, GitLab merges it, and every later answer has the
status `code`. -/
def mergeAnsweredWith (code : ℕ) : ClientWorld where
  breaker := createCircuitBreaker .default
  head := "tested"
  exchanges := fun n ↦
    { accepts := n = 1
      answer :=
        if n = 0 then .response { statusCode := 200, mergeRequest := some (sampleMr "tested") }
        else .response { statusCode := code, mergeRequest := some (sampleMr "tested") } }
  clock := fun n ↦ n

end MergeQueue
