import MergeQueue.PipelineHandler
import MergeQueue.WebhookHandler

/-!
# Pipeline webhooks

GitLab also tells the end of a pipeline by a webhook.  The handler judges by itself
whether the pipeline is the one that the row waits for, as the poller does, and a
payload may leave out the head on which the pipeline ran.
-/

namespace MergeQueue

open Interleave (Program Task)

/-! ## Events -/

/-- The fields of a pipeline payload: `sha` may be absent, and it may be null. -/
structure PipelinePayload where
  id : ℕ
  status : PipelineStatus
  sha : Option (Option String)
  mergeRequest : Option (Option ℕ)
  deriving DecidableEq, Repr

structure PipelineEvent where
  pipelineId : ℕ
  status : PipelineStatus
  sha : Option String
  mergeRequestIid : Option ℕ
  deriving DecidableEq, Repr

def parsePipelineEvent (data : PipelinePayload) : PipelineEvent where
  pipelineId := data.id
  status := data.status
  sha := data.sha.getD (some "")
  mergeRequestIid := data.mergeRequest.bind id

namespace PipelineWebhookHandler

variable (settings : Settings)

/-! ## The judgement of an event -/

/-- The text `sha[:8]` of a log line, which is an error where there is no head. -/
def shortSha : Option String → Prog String
  | some sha => pure (String.ofList (sha.toList.take 8))
  | none => throw (.other "'NoneType' object is not subscriptable")

/-- The write that makes another pipeline the tracked one. -/
def switchTo (mrIid : ℕ) (state : Status) (pipelineId : ℕ) : Prog Unit :=
  Prog.updateMrState settings.gitlabProjectId mrIid state
    { pipelineId := some (some pipelineId), retriedJobs := some [] }

/-- The row that the event is about, where the event is to be acted on. -/
def judge (event : PipelineEvent) (mrIid : ℕ) (item : QueueItem) : Prog (Option QueueItem) :=
  match item.pipelineId.filter (· ≠ event.pipelineId) with
  | some tracked =>
      let newer := event.sha.any fun sha ↦
        PipelineHandler.replaces item event.pipelineId sha tracked
      if newer then do
        switchTo settings mrIid item.state event.pipelineId
        Prog.getQueueItem settings.gitlabProjectId mrIid
      else return none
  | none =>
      if item.expectedSha.isSome && item.expectedSha ≠ event.sha then do
        let _ ← shortSha event.sha
        return none
      else return some item

def validatePipelineEvent (event : PipelineEvent) : Prog (Option QueueItem) :=
  match event.mergeRequestIid with
  | none => pure none
  | some mrIid => do
      match ← Prog.getQueueItem settings.gitlabProjectId mrIid with
      | none => return none
      | some item =>
          if item.state ≠ .testing then return none
          else judge settings event mrIid item

/-! ## The ends of a pipeline -/

/-- The row still is in testing and tracks no other pipeline. -/
def stillTracked (event : PipelineEvent) (item : QueueItem) : Bool :=
  item.state = .testing && item.pipelineId.all (· = event.pipelineId)

/-- A second read, which shows what another task did after the first one. -/
def freshItem (event : PipelineEvent) (mrIid : ℕ) : Prog (Option QueueItem) := do
  let item ← Prog.getQueueItem settings.gitlabProjectId mrIid
  return item.filter (stillTracked event)

def validFreshItem (event : PipelineEvent) : Prog (Option (ℕ × QueueItem)) := do
  match ← validatePipelineEvent settings event with
  | none => return none
  | some _ =>
      match event.mergeRequestIid with
      | none => throw (.other "AssertionError")
      | some mrIid => do
          let item ← freshItem settings event mrIid
          return item.map fun item ↦ (mrIid, item)

def handleSuccess (event : PipelineEvent) : Prog Unit := do
  match ← validFreshItem settings event with
  | none => pure ()
  | some (mrIid, item) =>
      if item.expectedSha.any fun sha ↦ sha ≠ "" && event.sha ≠ some sha then pure ()
      else do
        MRStateMachine.create settings mrIid item.targetBranch
        tryCatch (MRStateMachine.triggerPipelineSuccess settings) fun e ↦
          if e = .transitionNotAllowed then pure () else throw e

/-- The mark that lets the processor handle the failure. -/
def markFailed (mrIid : ℕ) : Prog Unit :=
  Prog.updateMrState settings.gitlabProjectId mrIid .testing
    { pipelineStatus := some (some .failed) }

def handleFailed (event : PipelineEvent) : Prog Unit := do
  match ← validFreshItem settings event with
  | none => pure ()
  | some (mrIid, _) => markFailed settings mrIid

/-- The newest later pipeline on the expected head. -/
def newerPipeline (pipelines : List Pipeline) (pipelineId : ℕ) (expectedSha : String) :
    Option Pipeline :=
  (pipelines.filter fun p ↦ decide (pipelineId < p.id) && p.sha = expectedSha).argmax Pipeline.id

def findNewerPipeline (event : PipelineEvent) (mrIid : ℕ) (item : QueueItem) :
    Prog (Option Pipeline) :=
  match item.expectedSha with
  | none => pure none
  | some expectedSha => do
      let pipelines : List Pipeline ← Prog.gitlab (.getMrPipelines mrIid)
      return newerPipeline pipelines event.pipelineId expectedSha

def handleCanceled (event : PipelineEvent) : Prog Unit := do
  match ← validFreshItem settings event with
  | none => pure ()
  | some (mrIid, item) => do
      match ← findNewerPipeline event mrIid item with
      | some best => switchTo settings mrIid .testing best.id
      | none => markFailed settings mrIid

def handle (event : PipelineEvent) : Prog Unit :=
  if event.mergeRequestIid.isNone then pure ()
  else
    match event.status with
    | .success => handleSuccess settings event
    | .failed => handleFailed settings event
    | .canceled => handleCanceled settings event
    | _ => pure ()

end PipelineWebhookHandler

/-! ## The poller, where GitLab leaves out the head -/

namespace PipelineHandler

variable (settings : Settings)

/-- `check_stale_pipeline` on what the row tells. -/
def staleVerdict (item : QueueItem) (pipelineId : ℕ) (sha : Option String) : StaleCheckResult :=
  match item.pipelineId.filter (· ≠ pipelineId) with
  | some tracked =>
      if sha.any fun sha ↦ replaces item pipelineId sha tracked then .switched else .skip
  | none =>
      if item.expectedSha.isSome && sha.isSome && sha ≠ item.expectedSha then .skip else .ok

def checkStaleReport (mrIid pipelineId : ℕ) (sha : Option String) : Prog StaleCheckResult := do
  let item ← Prog.getQueueItem settings.gitlabProjectId mrIid
  return (item.map fun item ↦ staleVerdict item pipelineId sha).getD .ok

/-- Without another tracked pipeline, a head counts only where one is expected. -/
theorem expects_other_iff (expected : Option String) (sha : String) :
    (expected.isSome && (some sha).isSome && some sha ≠ expected) =
      expected.any (· ≠ sha) := by
  cases expected with
  | none => rfl
  | some expected =>
      by_cases hsha : sha = expected
      · subst hsha
        simp
      · have hne : expected ≠ sha := fun h ↦ hsha h.symm
        simp [hsha, hne]

theorem staleVerdict_eq (item : QueueItem) (pipeline : Pipeline) :
    staleVerdict item pipeline.id (some pipeline.sha) = staleCheck item pipeline := by
  unfold staleVerdict staleCheck
  rw [expects_other_iff]
  cases hid : item.pipelineId with
  | none => rfl
  | some tracked =>
      by_cases htracked : tracked = pipeline.id
      · simp [htracked, Option.filter]
      · simp [htracked, Option.filter]

/-- With the head of the pipeline the check is the one that the loop makes. -/
theorem checkStaleReport_eq (mrIid : ℕ) (pipeline : Pipeline) :
    checkStaleReport settings mrIid pipeline.id (some pipeline.sha) =
      checkStalePipeline settings mrIid pipeline := by
  simp only [checkStaleReport, checkStalePipeline, staleVerdict_eq]

end PipelineHandler

/-! ## One judgement, made twice -/

/-- The task goes on with `item` as the answer to its first read. -/
def answerRead {α : Type} (item : Option QueueItem) :
    Task Op Op.Answer Local PyError α → Task Op Op.Answer Local PyError α
  | .ask _ (.db (.getQueueItem _ _)) next => next (.ok item)
  | t => t

/-- What the webhook does with the event: it hands out the row it read, switches, or ignores. -/
def eventVerdict (item : QueueItem) (pipelineId : ℕ) :
    Task Op Op.Answer Local PyError (Option QueueItem) → Option StaleCheckResult
  | .done (.ok none) _ => some .skip
  | .done (.ok (some accepted)) _ => if accepted = item then some .ok else none
  | .ask _ (.db (.updateMrState _ _ state extra)) _ =>
      if state = .testing ∧
          extra = { pipelineId := some (some pipelineId), retriedJobs := some [] } then
        some .switched
      else none
  | _ => none

/-- What the poller decides; an error is no decision. -/
def reportVerdict : Task Op Op.Answer Local PyError StaleCheckResult → Option StaleCheckResult
  | .done (.ok verdict) _ => some verdict
  | _ => none

section Judgement

variable (settings : Settings) (mrIid : ℕ) (event : PipelineEvent) (row : MergeRequestRow)

def webhookVerdict (s : Local) : Option StaleCheckResult :=
  eventVerdict (rowToQueueItem row) event.pipelineId
    (answerRead (some (rowToQueueItem row))
      (PipelineWebhookHandler.validatePipelineEvent settings event s))

def pollerVerdict (s : Local) : Option StaleCheckResult :=
  reportVerdict
    (answerRead (some (rowToQueueItem row))
      (PipelineHandler.checkStaleReport settings mrIid event.pipelineId event.sha s))

/-- Neither raises, and the webhook decides what the poller decides. -/
def judgeAlike (webhook poller : Local) : Prop :=
  ∃ verdict, webhookVerdict settings event row webhook = some verdict ∧
    pollerVerdict settings mrIid event row poller = some verdict

/-- The row expects a head and tracks no other pipeline, and the report names no head. -/
def headMissing : Prop :=
  event.sha = none ∧ row.expectedSha ≠ none ∧
    ∀ tracked ∈ row.pipelineId, tracked = event.pipelineId

variable {settings mrIid event row}

theorem webhookVerdict_of_testing {s : Local} (hiid : event.mergeRequestIid = some mrIid)
    (hrow : row.status = .testing) :
    webhookVerdict settings event row s =
      eventVerdict (rowToQueueItem row) event.pipelineId
        (PipelineWebhookHandler.judge settings event mrIid (rowToQueueItem row) s) := by
  have hstate : ¬(rowToQueueItem row).state ≠ .testing := fun h ↦ h hrow
  unfold webhookVerdict PipelineWebhookHandler.validatePipelineEvent
  rw [hiid]
  change eventVerdict _ _ ((if (rowToQueueItem row).state ≠ .testing then pure none
    else PipelineWebhookHandler.judge settings event mrIid (rowToQueueItem row) : Prog _) s) = _
  rw [if_neg hstate]

theorem pollerVerdict_eq {s : Local} :
    pollerVerdict settings mrIid event row s =
      some (PipelineHandler.staleVerdict (rowToQueueItem row) event.pipelineId event.sha) := rfl

/-- A tracked pipeline other than the reported one is judged alike. -/
theorem webhookVerdict_of_tracked {s : Local} {tracked : ℕ}
    (hiid : event.mergeRequestIid = some mrIid) (hrow : row.status = .testing)
    (hother : (rowToQueueItem row).pipelineId.filter (· ≠ event.pipelineId) = some tracked) :
    webhookVerdict settings event row s =
      some (PipelineHandler.staleVerdict (rowToQueueItem row) event.pipelineId event.sha) := by
  rw [webhookVerdict_of_testing hiid hrow]
  simp only [PipelineWebhookHandler.judge, PipelineHandler.staleVerdict, hother]
  split_ifs with hreplaces
  · exact if_pos ⟨hrow, rfl⟩
  · rfl

/-- Without another tracked pipeline the webhook decides as the poller, where a head is told. -/
theorem webhookVerdict_of_sha {s : Local} {sha : String}
    (hiid : event.mergeRequestIid = some mrIid) (hrow : row.status = .testing)
    (hother : (rowToQueueItem row).pipelineId.filter (· ≠ event.pipelineId) = none)
    (hsha : event.sha = some sha) :
    webhookVerdict settings event row s =
      some (PipelineHandler.staleVerdict (rowToQueueItem row) event.pipelineId event.sha) := by
  rw [webhookVerdict_of_testing hiid hrow]
  simp only [PipelineWebhookHandler.judge, PipelineHandler.staleVerdict, hother, hsha,
    Option.isSome_some, Bool.and_true, ne_comm (a := some sha)]
  split_ifs with hexpects
  · rfl
  · exact if_pos rfl

/-- Without another tracked pipeline and without a head, the webhook accepts the pipeline where
none is expected, and fails on its log line otherwise. -/
theorem webhookVerdict_of_no_sha {s : Local} (hiid : event.mergeRequestIid = some mrIid)
    (hrow : row.status = .testing)
    (hother : (rowToQueueItem row).pipelineId.filter (· ≠ event.pipelineId) = none)
    (hsha : event.sha = none) :
    webhookVerdict settings event row s =
      if row.expectedSha.isSome then none
      else some (PipelineHandler.staleVerdict (rowToQueueItem row) event.pipelineId event.sha) := by
  rw [webhookVerdict_of_testing hiid hrow]
  simp only [PipelineWebhookHandler.judge, PipelineHandler.staleVerdict, hother, hsha,
    rowToQueueItem_expectedSha]
  cases hexpected : row.expectedSha with
  | none => exact if_pos rfl
  | some expected => rfl

/-- No other pipeline is tracked. -/
theorem filter_eq_none_iff {tracked : Option ℕ} {pipelineId : ℕ} :
    tracked.filter (· ≠ pipelineId) = none ↔ ∀ id ∈ tracked, id = pipelineId := by
  cases tracked with
  | none => simp
  | some id => simp [Option.filter]

/-- The webhook and the poller judge a reported pipeline alike, and without an error, unless
the report names no head, one is expected, and no other pipeline is tracked. -/
theorem webhook_and_poller_judge_alike_iff (settings : Settings) (mrIid : ℕ)
    (event : PipelineEvent) (row : MergeRequestRow) (webhook poller : Local)
    (hiid : event.mergeRequestIid = some mrIid) (hrow : row.status = .testing) :
    judgeAlike settings mrIid event row webhook poller ↔ ¬headMissing event row := by
  have halike : webhookVerdict settings event row webhook =
      some (PipelineHandler.staleVerdict (rowToQueueItem row) event.pipelineId event.sha) →
        judgeAlike settings mrIid event row webhook poller :=
    fun h ↦ ⟨_, h, pollerVerdict_eq⟩
  cases hother : (rowToQueueItem row).pipelineId.filter (· ≠ event.pipelineId) with
  | some tracked =>
      refine iff_of_true (halike (webhookVerdict_of_tracked hiid hrow hother)) fun hmissing ↦ ?_
      have hnone := filter_eq_none_iff.mpr hmissing.2.2
      cases hnone.symm.trans hother
  | none =>
      cases hsha : event.sha with
      | some sha =>
          exact iff_of_true (halike (webhookVerdict_of_sha hiid hrow hother hsha))
            fun hmissing ↦ by cases hsha.symm.trans hmissing.1
      | none =>
          have hverdict : webhookVerdict settings event row webhook = if row.expectedSha.isSome
              then none else some _ := webhookVerdict_of_no_sha hiid hrow hother hsha
          cases hexpected : row.expectedSha with
          | none =>
              rw [hexpected] at hverdict
              exact iff_of_true (halike hverdict) fun hmissing ↦ hmissing.2.1 hexpected
          | some expected =>
              rw [hexpected] at hverdict
              refine iff_of_false (fun ⟨verdict, hwebhook, _⟩ ↦ ?_) (not_not_intro
                ⟨hsha, fun h ↦ ?_, filter_eq_none_iff.mp hother⟩)
              · cases hverdict.symm.trans hwebhook
              · cases hexpected.symm.trans h

end Judgement

/-- A success of the pipeline 12 of the merge request 7, without a head. -/
def successWithoutSha : PipelineEvent :=
  parsePipelineEvent
    { id := 12, status := .success, sha := some none, mergeRequest := some (some 7) }

def trackingRow : MergeRequestRow :=
  { sampleRow with status := .testing, pipelineId := some 12, expectedSha := some "tested" }

def judgeSettings : Settings where
  gitlabProjectId := 1
  rounds := 4

theorem webhook_fails_where_poller_accepts :
    trackingRow.status = .testing ∧
      webhookVerdict judgeSettings successWithoutSha trackingRow {} = none ∧
      pollerVerdict judgeSettings 7 successWithoutSha trackingRow {} = some .ok ∧
      ¬judgeAlike judgeSettings 7 successWithoutSha trackingRow {} {} := by
  refine ⟨rfl, rfl, rfl, ?_⟩
  rintro ⟨verdict, hwebhook, -⟩
  cases hwebhook

/-- A newer pipeline on the expected head is adopted by both. -/
theorem newer_pipeline_judged_alike :
    trackingRow.status = .testing ∧
      judgeAlike judgeSettings 7
        { successWithoutSha with pipelineId := 15, sha := some "tested" } trackingRow {} {} :=
  ⟨rfl, (webhook_and_poller_judge_alike_iff _ 7 _ trackingRow {} {} rfl rfl).mpr
    fun h ↦ by cases h.1⟩

end MergeQueue
