import MergeQueue.PipelineSteps

/-!
# The limit on rebases during testing

The number of attempts is carried through contexts that every outcome of a rebase check
replaces or drops.  Whatever GitLab, the queue and the clock answer, it is the number of
rebases that were requested, and a target branch that moves on after the last one fails
the merge request.
-/

namespace MergeQueue

open Interleave (Observer Program Reply Task)
open Interleave.Program (Asks Keeps Leaves Safe Told)
open QueueCompletion (enters_settles)

/-- `check_needs_rebase` finds that the target branch is ahead. -/
def targetAhead (mr : MergeRequest) : Bool :=
  !mr.hasConflicts && mr.mergeStatus != "can_be_merged" && mr.mergeStatus != "checking"

/-- How far a rebase check has come: the latest pipeline is known, and the time is. -/
inductive CheckStage
  | idle
  | polled
  | timed
  deriving DecidableEq, Repr

/-- What is noted of one call of `wait_for_pipeline`: how many rebases were requested,
whether the new head is still awaited, whether a check found the target branch ahead after
the last rebase, and whether the call rebased or slept after that. -/
structure RebaseWatch where
  requests : ℕ := 0
  waiting : Bool := false
  stage : CheckStage := .idle
  exhausted : Bool := false
  late : Bool := false
  deriving DecidableEq, Repr

namespace RebaseWatch

variable (limit : ℕ)

/-- A rebase check reads the merge request after the latest pipeline and the time. -/
def observe (w : RebaseWatch) : ProgExchange → RebaseWatch
  | ⟨.gitlab (.getLatestMrPipeline _), .ok (some _)⟩ => { w with stage := .polled }
  | ⟨.now, _⟩ => { w with stage := if w.stage = .polled then .timed else .idle }
  | ⟨.gitlab (.getMr _ _), .ok mr⟩ =>
      { w with
        stage := .idle
        exhausted := w.exhausted ||
          (decide (w.stage = .timed) && !w.waiting && decide (limit ≤ w.requests) &&
            targetAhead mr) }
  | ⟨.gitlab (.rebaseMr _), _⟩ =>
      { w with
        requests := w.requests + 1
        waiting := true
        stage := .idle
        late := w.late || w.exhausted }
  | ⟨.sleep _, _⟩ => { w with stage := .idle, late := w.late || w.exhausted }
  | ⟨.db _, _⟩ => { w with waiting := false, stage := .idle }
  | _ => { w with stage := .idle }

/-- The call stays within the limit, and ends once it is exhausted. -/
def Within (w : RebaseWatch) : Prop := w.requests ≤ limit ∧ w.late = false

/-- The attempts that were counted are the rebases that were requested. -/
structure Counted (count : ℕ) (w : RebaseWatch) : Prop where
  requests : w.requests = count
  exhausted : w.exhausted = false

/-- The attempts are counted, and the head of the last one is awaited. -/
structure Awaiting (count : ℕ) (w : RebaseWatch) : Prop extends w.Counted count where
  waiting : w.waiting = true

end RebaseWatch

def rebaseObserver (limit : ℕ) : Observer Op Op.Answer PyError RebaseWatch where
  observe := RebaseWatch.observe limit
  keeps := RebaseWatch.Within limit

/-! ## What the operations do to the record -/

/-- The operation neither reads the merge request, nor rebases it, nor sleeps. -/
def Op.quiet : Op → Bool
  | gitlab (.getMr ..) | gitlab (.rebaseMr _) | sleep _ => false
  | _ => true

/-- The operation may happen while the new head is awaited. -/
def Op.awaits : Op → Bool
  | gitlab (.rebaseMr _) | db _ => false
  | _ => true

theorem quiet_await {op : Op} (h : op.quiet = true) :
    (Prog.await op).Keeps (fun op ↦ op.quiet = true) fun _ ↦ True := Keeps.call h

theorem Op.quiet_of_follows {op : Op} (h : op.follows = true) : op.quiet = true := by
  cases op with
  | gitlab call => cases call <;> first | rfl | cases h
  | sleep => cases h
  | _ => rfl

namespace RebaseWatch

variable (limit : ℕ) {w : RebaseWatch}

theorem observe_quiet {op : Op} (h : op.quiet = true) (answer : Except PyError op.Answer) :
    (observe limit w ⟨op, answer⟩).requests = w.requests ∧
      (observe limit w ⟨op, answer⟩).exhausted = w.exhausted ∧
      (observe limit w ⟨op, answer⟩).late = w.late := by
  cases op with
  | gitlab call =>
      cases call with
      | getMr | rebaseMr => cases h
      | getLatestMrPipeline iid =>
          rcases answer with e | (_ | pipeline) <;> exact ⟨rfl, rfl, rfl⟩
      | _ => exact ⟨rfl, rfl, rfl⟩
  | sleep => cases h
  | _ => exact ⟨rfl, rfl, rfl⟩

/-- While the new head is awaited nothing is exhausted. -/
theorem observe_awaits {op : Op} (h : op.awaits = true) (answer : Except PyError op.Answer)
    (hwaiting : w.waiting = true) (hexhausted : w.exhausted = false) :
    (observe limit w ⟨op, answer⟩).requests = w.requests ∧
      (observe limit w ⟨op, answer⟩).waiting = true ∧
      (observe limit w ⟨op, answer⟩).exhausted = false ∧
      (observe limit w ⟨op, answer⟩).late = w.late := by
  cases op with
  | gitlab call =>
      cases call with
      | rebaseMr => cases h
      | getMr iid diverged =>
          cases answer with
          | error e => exact ⟨rfl, hwaiting, hexhausted, rfl⟩
          | ok mr => exact ⟨rfl, hwaiting, by simp [observe, hwaiting, hexhausted], rfl⟩
      | getLatestMrPipeline iid =>
          rcases answer with e | (_ | pipeline) <;> exact ⟨rfl, hwaiting, hexhausted, rfl⟩
      | _ => exact ⟨rfl, hwaiting, hexhausted, rfl⟩
  | db => cases h
  | sleep => exact ⟨rfl, hwaiting, hexhausted, by simp [observe, hexhausted]⟩
  | _ => exact ⟨rfl, hwaiting, hexhausted, rfl⟩

/-- A read that is no rebase check exhausts nothing. -/
theorem observe_getMr (iid : ℕ) (diverged : Bool) (answer : Except PyError MergeRequest)
    (hstage : w.stage ≠ .timed ∨ w.requests < limit ∨
      ∀ mr, answer = .ok mr → targetAhead mr = false) :
    (observe limit w ⟨.gitlab (.getMr iid diverged), answer⟩).requests = w.requests ∧
      (observe limit w ⟨.gitlab (.getMr iid diverged), answer⟩).exhausted = w.exhausted ∧
      (observe limit w ⟨.gitlab (.getMr iid diverged), answer⟩).late = w.late := by
  cases answer with
  | error e => exact ⟨rfl, rfl, rfl⟩
  | ok mr =>
      refine ⟨rfl, ?_, rfl⟩
      rcases hstage with hstage | hlimit | hready
      · simp [observe, hstage]
      · simp [observe, Nat.not_le.mpr hlimit]
      · simp [observe, hready mr rfl]

end RebaseWatch

/-! ## Programs that leave the count alone -/

section Counting

variable {α : Type} {limit count : ℕ} {p : Prog α}

/-- What depends only on the requests and on whether they are exhausted. -/
def RebaseWatch.Steady (inv : RebaseWatch → Prop) : Prop :=
  ∀ w w' : RebaseWatch, w'.requests = w.requests → w'.exhausted = w.exhausted → inv w → inv w'

theorem steady_counted : RebaseWatch.Steady (RebaseWatch.Counted count) :=
  fun _ _ hrequests hexhausted h ↦ ⟨hrequests.trans h.requests, hexhausted.trans h.exhausted⟩

/-- What a quiet program leaves alone. -/
theorem told_of_quiet {inv : RebaseWatch → Prop} (hinv : RebaseWatch.Steady inv)
    {pre : Local → Prop} {post : α → Local → Prop} {except : PyError → Local → Prop}
    (h : p.Asks (fun _ _ ↦ True) (fun _ op ↦ op.quiet = true) pre post except) :
    p.Told (rebaseObserver limit) (fun s w ↦ pre s ∧ inv w) (fun a s w ↦ post a s ∧ inv w)
      fun e s w ↦ except e s ∧ inv w := by
  refine Told.of_asks h fun s op w answer hop hw hwithin _ ↦ ?_
  obtain ⟨hrequests, hexhausted, hlate⟩ := RebaseWatch.observe_quiet limit hop answer
  exact ⟨⟨hrequests.symm ▸ hwithin.1, hlate.trans hwithin.2⟩, hinv _ _ hrequests hexhausted hw⟩

theorem told_of_keeps {inv : RebaseWatch → Prop} (hinv : RebaseWatch.Steady inv)
    (h : p.Keeps (fun op ↦ op.quiet = true) fun _ ↦ True) :
    p.Told (rebaseObserver limit) (fun _ ↦ inv) (fun _ _ ↦ inv) fun _ _ ↦ inv :=
  (told_of_quiet hinv h).mono (fun _ _ h ↦ ⟨trivial, h⟩) (fun _ _ _ h ↦ h.2) fun _ _ _ h ↦ h.2

/-- A program that follows a pipeline leaves the count alone. -/
theorem told_of_follows {inv : RebaseWatch → Prop} (hinv : RebaseWatch.Steady inv)
    (h : p.Follows) :
    p.Told (rebaseObserver limit) (fun _ ↦ inv) (fun _ _ ↦ inv) fun _ _ ↦ inv :=
  told_of_keeps hinv (h.mono fun _ ↦ Op.quiet_of_follows)

/-- A read of the merge request that is no rebase check. -/
theorem told_getMr {mrIid : ℕ} {diverged : Bool} {inv : RebaseWatch → Prop}
    (hinv : RebaseWatch.Steady inv) :
    (Prog.gitlab (.getMr mrIid diverged)).Told (rebaseObserver limit)
      (fun _ w ↦ inv w ∧ (w.stage ≠ .timed ∨ w.requests < limit)) (fun _ _ ↦ inv)
      fun _ _ ↦ inv := by
  refine Told.call fun s w answer hw hwithin _ ↦ ?_
  have hstage : w.stage ≠ .timed ∨ w.requests < limit ∨
      ∀ mr, answer = .ok mr → targetAhead mr = false := hw.2.imp id Or.inl
  obtain ⟨hrequests, hexhausted, hlate⟩ :=
    RebaseWatch.observe_getMr limit mrIid diverged answer hstage
  have hnext := hinv _ _ hrequests hexhausted hw.1
  exact ⟨⟨hrequests.symm ▸ hwithin.1, hlate.trans hwithin.2⟩, by cases answer <;> exact hnext⟩

/-- While the new head is awaited, any operation but a rebase leaves the count alone. -/
theorem told_of_awaits (h : p.Keeps (fun op ↦ op.awaits = true) fun _ ↦ True) :
    p.Told (rebaseObserver limit) (fun _ ↦ RebaseWatch.Awaiting count)
      (fun _ _ ↦ RebaseWatch.Awaiting count) fun _ _ ↦ RebaseWatch.Awaiting count := by
  have hawaits : p.Told (rebaseObserver limit) (fun _ w ↦ True ∧ w.Awaiting count)
      (fun _ _ w ↦ True ∧ w.Awaiting count) fun _ _ w ↦ True ∧ w.Awaiting count := by
    refine Told.of_asks h fun s op w answer hop hw hwithin _ ↦ ?_
    obtain ⟨hrequests, hwaiting, hexhausted, hlate⟩ :=
      RebaseWatch.observe_awaits limit hop answer hw.waiting hw.exhausted
    exact ⟨⟨hrequests.symm ▸ hwithin.1, hlate.trans hwithin.2⟩,
      ⟨⟨hrequests.trans hw.requests, hexhausted⟩, hwaiting⟩⟩
  exact hawaits.mono (fun _ _ h ↦ ⟨trivial, h⟩) (fun _ _ _ h ↦ h.2) fun _ _ _ h ↦ h.2

end Counting

/-! ## One rebase -/

namespace RebaseDuringTestingHandler

variable {settings : Settings} {limit count : ℕ}

theorem awaits_waitForRebaseCompletion (mrIid timeoutSeconds interval : ℕ)
    (conflictPrefix timeoutMessage shutdownMessage : String) :
    (waitForRebaseCompletion settings mrIid timeoutSeconds interval conflictPrefix timeoutMessage
      shutdownMessage).Keeps (fun op ↦ op.awaits = true) fun _ ↦ True := by
  refine Keeps.bind (keeps_pollUntilDone rfl rfl rfl (Keeps.bind (Keeps.call rfl) fun out ↦ ?_))
    fun outcome ↦ ?_
  · obtain ⟨rebaseInProgress, hasConflicts, mergeError⟩ := out
    simp only
    split_ifs
    · exact Keeps.throw _
    · exact Keeps.ret _
    · exact Keeps.ret _
  · cases outcome with
    | completed result => exact Keeps.ret ()
    | shutdownRequested => exact Keeps.throw _
    | timedOut => exact Keeps.throw _

theorem awaits_waitForNewPipeline (mrIid : ℕ) (oldSha : String) (oldPipelineId : Option ℕ) :
    (waitForNewPipeline settings mrIid oldSha oldPipelineId).Keeps (fun op ↦ op.awaits = true)
      fun _ ↦ True := by
  refine Keeps.bind (keeps_pollUntilDone rfl rfl rfl (Keeps.bind (Keeps.call rfl) fun mr ↦ ?_))
    fun outcome ↦ ?_
  · split_ifs
    · exact Keeps.bind (Keeps.call rfl) fun _ ↦ Keeps.ret _
    · exact Keeps.ret _
  · cases outcome with
    | completed result => exact Keeps.ret _
    | shutdownRequested => exact Keeps.ret _
    | timedOut =>
        exact Keeps.bind (Keeps.call rfl) fun _ ↦ Keeps.bind (Keeps.call rfl) fun _ ↦ Keeps.ret _

theorem quiet_cancelCurrentPipeline (ctx : RebaseDuringTestingContext) :
    (cancelCurrentPipeline ctx).Keeps (fun op ↦ op.quiet = true) fun _ ↦ True := by
  unfold cancelCurrentPipeline
  cases ctx.currentPipelineId with
  | none => exact Keeps.ret ()
  | some id =>
      exact keeps_catching (Keeps.bind (Keeps.call rfl) fun _ ↦ Keeps.ret ()) fun _ ↦ Keeps.ret ()

theorem told_rebaseMr {mrIid : ℕ} (hcount : count < limit) :
    (Prog.gitlab (.rebaseMr mrIid)).Told (rebaseObserver limit)
      (fun _ ↦ RebaseWatch.Counted count) (fun _ _ ↦ RebaseWatch.Awaiting (count + 1))
      fun _ _ w ↦ w.exhausted = false := by
  refine Told.call fun s w answer hw hwithin _ ↦ ⟨⟨?_, ?_⟩, ?_⟩
  · change w.requests + 1 ≤ limit
    rw [hw.requests]
    exact hcount
  · change (w.late || w.exhausted) = false
    rw [hwithin.2, hw.exhausted]
    rfl
  · cases answer with
    | ok done => exact ⟨⟨congrArg (· + 1) hw.requests, hw.exhausted⟩, rfl⟩
    | error e => exact hw.exhausted

/-- A rebase counts one attempt more, unless it fails. -/
theorem told_rebaseAgain (mrIid : ℕ) (ctx : RebaseDuringTestingContext)
    (hcount : ctx.rebaseCount < limit) :
    (rebaseAgain settings mrIid ctx).Told (rebaseObserver limit)
      (fun _ ↦ RebaseWatch.Counted ctx.rebaseCount)
      (fun out _ w ↦ out.1.rebaseCount = ctx.rebaseCount + 1 ∧
        out.1.maxAttempts = ctx.maxAttempts ∧ w.Counted out.1.rebaseCount)
      fun _ _ w ↦ w.exhausted = false := by
  have hexcept : ∀ (count : ℕ) (_ : PyError) (_ : Local) (w : RebaseWatch),
      w.Counted count → w.exhausted = false := fun _ _ _ _ h ↦ h.exhausted
  refine Safe.bind ((told_of_keeps steady_counted (quiet_cancelCurrentPipeline ctx)).mono
    (fun _ _ h ↦ h) (fun _ _ _ h ↦ h) (hexcept _)) fun _ ↦ ?_
  refine Safe.bind ((told_getMr steady_counted).mono
    (fun _ w h ↦ ⟨h, Or.inr (h.requests ▸ hcount)⟩) (fun _ _ _ h ↦ h) (hexcept _)) fun mr ↦ ?_
  refine Safe.bind (told_rebaseMr hcount) fun _ ↦ ?_
  refine Safe.bind ((told_of_awaits (awaits_waitForRebaseCompletion _ _ _ _ _ _)).mono
    (fun _ _ h ↦ h) (fun _ _ _ h ↦ h) fun _ _ _ h ↦ h.exhausted) fun _ ↦ ?_
  refine Safe.bind ((told_of_awaits (awaits_waitForNewPipeline _ _ _)).mono
    (fun _ _ h ↦ h) (fun _ _ _ h ↦ h) fun _ _ _ h ↦ h.exhausted) fun newPipeline ↦ ?_
  exact Safe.ret fun _ _ h ↦ ⟨rfl, rfl, h.toCounted⟩

/-- What a rebase check knows of the merge request that it read. -/
theorem told_checkNeedsRebase (mrIid : ℕ) :
    (checkNeedsRebase mrIid).Told (rebaseObserver limit) (fun _ ↦ RebaseWatch.Counted count)
      (fun readiness _ w ↦ w.requests = count ∧
        ((readiness = .needsRebase → count < limit) → w.exhausted = false))
      fun _ _ w ↦ w.exhausted = false := by
  have hread : (Prog.gitlab (.getMr mrIid false)).Told (rebaseObserver limit)
      (fun _ ↦ RebaseWatch.Counted count)
      (fun mr _ w ↦ w.requests = count ∧
        ((targetAhead mr = true → count < limit) → w.exhausted = false))
      fun _ _ w ↦ w.exhausted = false := by
    refine Told.call fun s w answer hw hwithin _ ↦ ?_
    cases answer with
    | error e => exact ⟨hwithin, hw.exhausted⟩
    | ok mr =>
        refine ⟨hwithin, hw.requests, fun hahead ↦ ?_⟩
        have hstage : w.requests < limit ∨ targetAhead mr = false := by
          cases htarget : targetAhead mr with
          | false => exact Or.inr rfl
          | true => exact Or.inl (hw.requests.symm ▸ hahead htarget)
        have hread : w.stage ≠ .timed ∨ w.requests < limit ∨
            ∀ mr', Except.ok (ε := PyError) mr = .ok mr' → targetAhead mr' = false :=
          Or.inr (hstage.imp id fun h _ heq ↦ Except.ok.inj heq ▸ h)
        exact (RebaseWatch.observe_getMr limit mrIid false (.ok mr) hread).2.1.trans hw.exhausted
  refine Safe.bind hread fun mr ↦ ?_
  split_ifs with hconflicts hready
  · exact Safe.ret fun _ _ h ↦ ⟨h.1, fun _ ↦ h.2 fun htarget ↦ by
      simp [targetAhead, hconflicts] at htarget⟩
  · refine Safe.ret fun _ _ h ↦ ⟨h.1, fun _ ↦ h.2 fun htarget ↦ ?_⟩
    rcases hready with hready | hready <;> simp [targetAhead, hready] at htarget
  · exact Safe.ret fun _ _ h ↦ ⟨h.1, fun hlimit ↦ h.2 fun _ ↦ hlimit rfl⟩

/-- A check counts what it requested.  Where the limit is reached and the target branch
ahead, it raises, and no other error follows such a check. -/
theorem told_handleRebaseIfNeeded (mrIid : ℕ) (ctx : RebaseDuringTestingContext)
    (hlimit : ctx.maxAttempts = limit) :
    (handleRebaseIfNeeded settings mrIid ctx).Told (rebaseObserver limit)
      (fun _ ↦ RebaseWatch.Counted ctx.rebaseCount)
      (fun out _ w ↦ ctx.rebaseCount ≤ out.1.rebaseCount ∧
        out.1.maxAttempts = limit ∧ w.Counted out.1.rebaseCount)
      fun e _ w ↦ w.exhausted = true → ∃ message, e = .rebaseRetryLimitExceeded message := by
  have hexcept : ∀ (e : PyError) (_ : Local) (w : RebaseWatch), w.exhausted = false →
      w.exhausted = true → ∃ message, e = .rebaseRetryLimitExceeded message :=
    fun _ _ _ h htrue ↦ absurd (h.symm.trans htrue) Bool.false_ne_true
  refine Safe.bind ((told_checkNeedsRebase mrIid).mono (fun _ _ h ↦ h) (fun _ _ _ h ↦ h)
    hexcept) fun readiness ↦ ?_
  cases readiness with
  | ready => exact Safe.ret fun _ _ h ↦ ⟨le_rfl, hlimit, h.1, h.2 fun hneeds ↦ by cases hneeds⟩
  | hasConflicts =>
      exact Safe.throw fun s w h ↦ hexcept _ s w (h.2 fun hneeds ↦ by cases hneeds)
  | needsRebase =>
      simp only
      split_ifs with hreached
      · exact Safe.throw fun _ _ _ _ ↦ ⟨_, rfl⟩
      · have hcount : ctx.rebaseCount < limit := hlimit ▸ Nat.not_le.mp hreached
        refine (told_rebaseAgain mrIid ctx hcount).mono
          (fun _ _ h ↦ ⟨h.1, h.2 fun _ ↦ hcount⟩) (fun out _ w h ↦ ?_) hexcept
        exact ⟨h.1.symm ▸ Nat.le_succ _, h.2.1.trans hlimit, h.2.2⟩

end RebaseDuringTestingHandler

/-! ## One check -/

/-- A result of the loop that the limit brings about: the merge request has failed. -/
def FailsWhenExhausted (w : RebaseWatch) (s : Local) (result : ProcessingResult) : Prop :=
  w.exhausted = true → result = .pipelineFailed ∧
    ∃ m, s.machine = some m ∧ m.current = .failed

theorem failed_of_reached {s : Local} (h : MRStateMachine.Reached .pipelineFailed s) :
    ∃ m, s.machine = some m ∧ m.current = .failed := by
  obtain ⟨m, source, hm, htransition⟩ := h
  refine ⟨m, hm, ?_⟩
  cases source <;> first | exact (Option.some.inj htransition).symm | cases htransition

namespace RebaseCoordinator

variable {settings : Settings} {limit : ℕ}

/-- The attempts of the context that the loop goes on with are counted. -/
def Sound (limit count : ℕ) (w : RebaseWatch) (s : Local) : RebaseResult → Prop
  | .unchanged => w.Counted count
  | .context ctx => ctx.maxAttempts = limit ∧ w.Counted ctx.rebaseCount
  | .result result => FailsWhenExhausted w s result

theorem told_attemptRebase (mrIid : ℕ) (state : PipelineWaitState) (pipeline : Pipeline)
    (hlimit : state.rebaseCtx.maxAttempts = limit) :
    (attemptRebase settings mrIid state pipeline).Told (rebaseObserver limit)
      (fun _ ↦ RebaseWatch.Counted state.rebaseCtx.rebaseCount)
      (fun out s w ↦ Sound limit state.rebaseCtx.rebaseCount w s out)
      fun e _ w ↦ w.exhausted = true → ∃ message, e = .rebaseRetryLimitExceeded message := by
  refine Safe.bind (RebaseDuringTestingHandler.told_handleRebaseIfNeeded mrIid state.rebaseCtx
    hlimit) fun out ↦ ?_
  obtain ⟨newCtx, newPipeline⟩ := out
  cases newPipeline with
  | none =>
      simp only
      split_ifs with hmore
      · exact Safe.ret fun _ _ h ↦ ⟨h.2.1, h.2.2⟩
      · refine Safe.ret fun s w h ↦ ?_
        have hsame : newCtx.rebaseCount = state.rebaseCtx.rebaseCount :=
          le_antisymm (Nat.not_lt.mp hmore) h.1
        exact hsame ▸ h.2.2
  | some newPipeline =>
      have hnotify : (MRStateMachine.notifyRebaseDuringTesting settings (some pipeline.id)
          newPipeline.id newCtx.rebaseCount newCtx.maxAttempts newPipeline.sha).Follows :=
        MRStateMachine.keeps_notifyRebaseDuringTesting _ _ _ _ _
          (fun _ hop ↦ Op.follows_of_settles (Op.settles_of_tends hop)) fun _ _ ↦ rfl
      have hsteady : RebaseWatch.Steady fun w ↦
          newCtx.maxAttempts = limit ∧ w.Counted newCtx.rebaseCount :=
        fun w w' hrequests hexhausted h ↦ ⟨h.1, steady_counted w w' hrequests hexhausted h.2⟩
      refine Safe.bind ((told_of_follows hsteady hnotify).mono (fun _ _ h ↦ h.2)
        (fun _ _ _ h ↦ h) fun e s w h htrue ↦ ?_) fun _ ↦ Safe.ret fun _ _ h ↦ h
      exact absurd (h.2.exhausted.symm.trans htrue) Bool.false_ne_true

/-- A failure after the last rebase fails the merge request. -/
theorem told_failRebase (mrIid : ℕ) (state : PipelineWaitState) (e : PyError) :
    (failRebase settings mrIid state e).Told (rebaseObserver limit)
      (fun _ w ↦ w.exhausted = true → ∃ message, e = .rebaseRetryLimitExceeded message)
      (fun out s w ↦ Sound limit state.rebaseCtx.rebaseCount w s out) fun _ _ _ ↦ True := by
  have hsteady : ∀ b, RebaseWatch.Steady fun w ↦ w.exhausted = true → b :=
    fun b w w' _ hexhausted h htrue ↦ h (hexhausted ▸ htrue)
  by_cases hlimit : ∃ message, e = .rebaseRetryLimitExceeded message
  · obtain ⟨message, rfl⟩ := hlimit
    have hfail : (MRStateMachine.triggerPipelineFailed settings [] state.retriedJobs
        (PyError.rebaseRetryLimitExceeded message).text).Told (rebaseObserver limit)
        (fun _ _ ↦ True ∧ True) (fun _ s _ ↦ MRStateMachine.Reached .pipelineFailed s ∧ True)
        fun _ _ _ ↦ True ∧ True :=
      told_of_quiet (fun _ _ _ _ h ↦ h)
        ((MRStateMachine.asks_triggerPipelineFailed enters_settles _ _ _).mono
        (fun _ _ hop ↦ Op.quiet_of_follows (Op.follows_of_settles hop)) (fun _ h ↦ h)
        (fun _ _ h ↦ h) fun _ _ h ↦ h)
    refine Safe.bind (hfail.mono (fun _ _ _ ↦ ⟨trivial, trivial⟩) (fun _ _ _ h ↦ h)
      fun _ _ _ _ ↦ trivial) fun _ ↦ Safe.ret fun s w h _ ↦ ?_
    exact ⟨rfl, failed_of_reached h.1⟩
  · -- Nothing is exhausted, whatever the result is.
    have hquiet : (failRebase settings mrIid state e).Asks (fun _ _ ↦ True)
        (fun _ op ↦ op.quiet = true) (fun _ ↦ True) (fun out _ ↦ ∃ result, out = .result result)
        fun _ _ ↦ True :=
      asks_failRebase (fun op hop ↦ Op.quiet_of_follows (Op.follows_of_settles hop)) rfl state e
    refine (told_of_quiet (hsteady _) hquiet).mono (fun _ _ h ↦ ⟨trivial, h⟩) ?_
      fun _ _ _ _ ↦ trivial
    rintro out s w ⟨⟨result, rfl⟩, h⟩ hexhausted
    exact absurd (h hexhausted) hlimit

theorem told_checkAndHandleRebaseDuringTesting (mrIid : ℕ) (state : PipelineWaitState)
    (pipeline : Pipeline) (hlimit : state.rebaseCtx.maxAttempts = limit) :
    (checkAndHandleRebaseDuringTesting settings mrIid state pipeline).Told (rebaseObserver limit)
      (fun _ ↦ RebaseWatch.Counted state.rebaseCtx.rebaseCount)
      (fun out s w ↦ Sound limit state.rebaseCtx.rebaseCount w s out) fun _ _ _ ↦ True :=
  Safe.handle (told_attemptRebase mrIid state pipeline hlimit) fun e ↦
    told_failRebase mrIid state e

/-- The context or the result that a check leaves the loop with. -/
def SoundOutcome (limit : ℕ) (w : RebaseWatch) (s : Local) (outcome : RebaseCheckOutcome) : Prop :=
  match outcome.result, outcome.context with
  | some result, _ => FailsWhenExhausted w s result
  | none, some ctx => ctx.maxAttempts = limit ∧ w.Counted ctx.rebaseCount
  | none, none => False

theorem told_maybeRebaseDuringTesting (mrIid : ℕ) (state : PipelineWaitState)
    (pipeline : Pipeline) (hlimit : state.rebaseCtx.maxAttempts = limit) :
    (maybeRebaseDuringTesting settings mrIid state pipeline).Told (rebaseObserver limit)
      (fun _ ↦ RebaseWatch.Counted state.rebaseCtx.rebaseCount)
      (fun outcome s w ↦ SoundOutcome limit w s outcome) fun _ _ _ ↦ True := by
  have hnow : Prog.now.Keeps (fun op : Op ↦ op.quiet = true) fun _ : Local ↦ True := Keeps.call rfl
  refine Safe.bind ((told_of_keeps steady_counted hnow).mono (fun _ _ h ↦ h) (fun _ _ _ h ↦ h)
    fun _ _ _ _ ↦ trivial) fun now ↦ ?_
  split_ifs
  · exact Safe.ret fun _ _ h ↦ ⟨hlimit, h⟩
  · refine Safe.bind (told_checkAndHandleRebaseDuringTesting mrIid state pipeline hlimit)
      fun out ↦ ?_
    cases out with
    | unchanged => exact Safe.ret fun _ _ h ↦ ⟨hlimit, h⟩
    | context ctx => exact Safe.ret fun _ _ h ↦ h
    | result result => exact Safe.ret fun _ _ h ↦ h

end RebaseCoordinator

/-! ## The loop -/

namespace PipelineHandler

variable {settings : Settings} {limit : ℕ}

/-- The loop goes on with attempts that are counted. -/
def CountedState (limit : ℕ) (state : PipelineWaitState) (w : RebaseWatch) : Prop :=
  state.rebaseCtx.maxAttempts = limit ∧ w.Counted state.rebaseCtx.rebaseCount

/-- The loop goes on with attempts that are counted, or ends. -/
def SoundRound (limit : ℕ) (out : PipelineWaitState × Option ProcessingResult) (s : Local)
    (w : RebaseWatch) : Prop :=
  match out.2 with
  | some result => FailsWhenExhausted w s result
  | none => CountedState limit out.1 w

theorem steady_countedState (limit : ℕ) (state : PipelineWaitState) :
    RebaseWatch.Steady (CountedState limit state) :=
  fun w w' hrequests hexhausted h ↦ ⟨h.1, steady_counted w w' hrequests hexhausted h.2⟩

theorem failsWhenExhausted_of_counted {count : ℕ} {w : RebaseWatch} (h : w.Counted count)
    (s : Local) (result : ProcessingResult) : FailsWhenExhausted w s result :=
  fun htrue ↦ absurd (h.exhausted.symm.trans htrue) Bool.false_ne_true

/-- A step that looks at no merge request and goes on with the same context. -/
theorem told_of_sameContext {state : PipelineWaitState}
    {p : Prog (PipelineWaitState × Option ProcessingResult)}
    (h : p.Asks (fun _ _ ↦ True) (fun _ op ↦ op.follows = true) (fun _ ↦ True)
      (fun out _ ↦ out.1.rebaseCtx = state.rebaseCtx) fun _ _ ↦ True) :
    p.Told (rebaseObserver limit) (fun _ ↦ CountedState limit state)
      (fun out s w ↦ SoundRound limit out s w) fun _ _ _ ↦ True := by
  refine (told_of_quiet (steady_countedState limit state) (h.mono
    (fun _ _ ↦ Op.quiet_of_follows) (fun _ h ↦ h) (fun _ _ h ↦ h) fun _ _ h ↦ h)).mono
    (fun _ _ h ↦ ⟨trivial, h⟩) ?_ fun _ _ _ _ ↦ trivial
  rintro ⟨state', ended⟩ s w ⟨hctx, hcounted⟩
  cases ended with
  | none => exact ⟨hctx ▸ hcounted.1, hctx ▸ hcounted.2⟩
  | some result => exact failsWhenExhausted_of_counted hcounted.2 s result

theorem applyCanceledGracePeriod_rebaseCtx (state : PipelineWaitState) (pipeline : Pipeline) :
    (applyCanceledGracePeriod state pipeline).1.rebaseCtx = state.rebaseCtx := by
  unfold applyCanceledGracePeriod
  split_ifs <;> rfl

theorem asks_followPipeline (mrIid : ℕ) (pipeline : Pipeline) (state : PipelineWaitState) :
    (followPipeline settings mrIid pipeline state).Asks (fun _ _ ↦ True)
      (fun _ op ↦ op.follows = true) (fun _ ↦ True)
      (fun out _ ↦ out.1.rebaseCtx = state.rebaseCtx) fun _ _ ↦ True := by
  have hgrace := applyCanceledGracePeriod_rebaseCtx state pipeline
  unfold followPipeline
  simp only
  split_ifs
  · exact Asks.ret fun _ _ ↦ hgrace
  · refine Asks.bind (follows_handlePipelineStatus _ _ _) fun status ↦ ?_
    cases status with
    | wait => exact Asks.ret fun _ _ ↦ hgrace
    | result result => exact Asks.ret fun _ _ ↦ hgrace
    | retry signal => exact Asks.ret fun _ _ ↦ hgrace

theorem asks_resetPipelineWaitState (state : PipelineWaitState) :
    (resetPipelineWaitState state).Asks (fun _ _ ↦ True) (fun _ op ↦ op.follows = true)
      (fun _ ↦ True) (fun out _ ↦ out.rebaseCtx = state.rebaseCtx) fun _ _ ↦ True :=
  Asks.bind (follows_await rfl) fun _ ↦ Asks.ret fun _ _ ↦ rfl

theorem asks_tryRecoverFromStaleSkip (mrIid : ℕ) (pipeline : Pipeline)
    (state : PipelineWaitState) :
    (tryRecoverFromStaleSkip settings mrIid pipeline state).Asks (fun _ _ ↦ True)
      (fun _ op ↦ op.follows = true) (fun _ ↦ True)
      (fun out _ ↦ out.rebaseCtx = state.rebaseCtx) fun _ _ ↦ True := by
  refine Asks.bind (follows_await rfl) fun item ↦ ?_
  split
  · exact Asks.ret fun _ _ ↦ rfl
  · refine Asks.bind (follows_await rfl) fun tracked ↦ ?_
    split_ifs
    · exact Asks.bind (follows_writeTesting _ _) fun _ ↦ asks_resetPipelineWaitState state
    · exact Asks.ret fun _ _ ↦ rfl

/-- What the loop does once a check has left its context alone. -/
theorem told_afterCheck (mrIid : ℕ) (pipeline : Pipeline) (state : PipelineWaitState) :
    (checkStalePipeline settings mrIid pipeline >>= fun verdict ↦
      match verdict with
      | .skip => do
          let state ← tryRecoverFromStaleSkip settings mrIid pipeline state
          return (state, none)
      | .switched => do
          writeTesting settings mrIid
            { pipelineId := some (some pipeline.id), retriedJobs := some [] }
          let state ← resetPipelineWaitState state
          return (state, none)
      | .ok => followPipeline settings mrIid pipeline state).Told (rebaseObserver limit)
      (fun _ ↦ CountedState limit state) (fun out s w ↦ SoundRound limit out s w)
      fun _ _ _ ↦ True := by
  refine told_of_sameContext
    (Asks.bind (follows_checkStalePipeline mrIid pipeline) fun verdict ↦ ?_)
  cases verdict with
  | skip => exact Asks.bind (asks_tryRecoverFromStaleSkip mrIid pipeline state) fun _ ↦
      Asks.ret fun _ h ↦ h
  | switched =>
      refine Asks.bind (follows_writeTesting _ _) fun _ ↦ ?_
      exact Asks.bind (asks_resetPipelineWaitState state) fun _ ↦ Asks.ret fun _ h ↦ h
  | ok => exact asks_followPipeline mrIid pipeline state

theorem told_applyRebaseOutcome (mrIid : ℕ) (state : PipelineWaitState)
    (outcome : RebaseCheckOutcome) :
    (applyRebaseOutcome settings mrIid state outcome).Told (rebaseObserver limit)
      (fun s w ↦ RebaseCoordinator.SoundOutcome limit w s outcome)
      (fun out s w ↦ SoundRound limit out s w) fun _ _ _ ↦ True := by
  obtain ⟨context, result, lastCheck, shouldReset⟩ := outcome
  cases result with
  | some result => exact Safe.ret fun _ _ h ↦ h
  | none =>
      cases context with
      | none => exact fun _ _ h ↦ absurd h id
      | some ctx =>
          have hcounted := steady_countedState limit { state with rebaseCtx := ctx }
          unfold applyRebaseOutcome
          simp only
          split_ifs
          · refine Safe.bind ((told_of_follows hcounted (follows_writeTesting mrIid _)).mono
              (fun _ _ h ↦ h) (fun _ _ _ h ↦ h) fun _ _ _ _ ↦ trivial) fun _ ↦ ?_
            have hnow : Prog.now.Follows := Keeps.call rfl
            exact Safe.bind ((told_of_follows hcounted hnow).mono (fun _ _ h ↦ h)
              (fun _ _ _ h ↦ h) fun _ _ _ _ ↦ trivial) fun _ ↦ Safe.ret fun _ _ h ↦ h
          · exact Safe.ret fun _ _ h ↦ h

theorem told_processPipeline (mrIid : ℕ) (pipeline : Pipeline) (state : PipelineWaitState) :
    (processPipeline settings mrIid pipeline state).Told (rebaseObserver limit)
      (fun _ ↦ CountedState limit state) (fun out s w ↦ SoundRound limit out s w)
      fun _ _ _ ↦ True := by
  by_cases hlimit : state.rebaseCtx.maxAttempts = limit
  · let polled : PipelineWaitState :=
      { state with rebaseCtx := { state.rebaseCtx with currentPipelineId := some pipeline.id } }
    have hcheck : (RebaseCoordinator.maybeRebaseDuringTesting settings mrIid polled pipeline).Told
        (rebaseObserver limit) (fun _ ↦ CountedState limit state)
        (fun outcome s w ↦ RebaseCoordinator.SoundOutcome limit w s outcome) fun _ _ _ ↦ True :=
      (RebaseCoordinator.told_maybeRebaseDuringTesting mrIid polled pipeline hlimit).mono
        (fun _ _ h ↦ h.2) (fun _ _ _ h ↦ h) fun _ _ _ h ↦ h
    refine Safe.bind hcheck fun outcome ↦ ?_
    refine Safe.bind (told_applyRebaseOutcome mrIid _ outcome) fun out ↦ ?_
    obtain ⟨state', ended⟩ := out
    cases ended with
    | some result => exact Safe.ret fun _ _ h ↦ h
    | none => exact told_afterCheck mrIid pipeline state'
  · exact fun _ _ h ↦ absurd h.1 hlimit

/-! ### The conditions that end the loop -/

/-- The check that the merge request is still queued is no rebase check. -/
theorem told_verifyMrInQueue (mrIid : ℕ) {inv : RebaseWatch → Prop}
    (hinv : RebaseWatch.Steady inv) :
    (verifyMrInQueue settings mrIid).Told (rebaseObserver limit)
      (fun _ w ↦ inv w ∧ w.stage ≠ .timed) (fun _ _ ↦ inv) fun _ _ ↦ inv := by
  refine told_catching (fun _ ↦ inv) ?_ (fun _ ↦ Safe.ret fun _ _ h ↦ h) fun _ _ _ h ↦ h
  refine Safe.bind ((told_getMr hinv).mono (fun _ _ h ↦ ⟨h.1, Or.inl h.2⟩) (fun _ _ _ h ↦ h)
    fun _ _ _ h ↦ h) fun mr ↦ ?_
  split_ifs
  · refine Safe.bind (told_of_follows hinv (keeps_catching ?_ fun _ ↦ Keeps.ret ())) fun _ ↦
      Safe.ret fun _ _ h ↦ h
    exact Keeps.bind (Keeps.call rfl) fun _ ↦ Keeps.ret ()
  · exact Safe.ret fun _ _ h ↦ h
  · exact Safe.ret fun _ _ h ↦ h
  · exact Safe.ret fun _ _ h ↦ h

/-- The stage of a check is lost by asking for anything but the time. -/
theorem told_shutdownRequested {inv : RebaseWatch → Prop} (hinv : RebaseWatch.Steady inv) :
    (Prog.await .shutdownRequested).Told (rebaseObserver limit) (fun _ ↦ inv)
      (fun _ _ w ↦ inv w ∧ w.stage = .idle) fun _ _ _ ↦ True := by
  refine Told.call fun s w answer hw hwithin _ ↦ ⟨hwithin, ?_⟩
  cases answer with
  | ok stopping => exact ⟨hinv w _ rfl rfl hw, rfl⟩
  | error e => trivial

theorem told_now_of_idle {inv : RebaseWatch → Prop} (hinv : RebaseWatch.Steady inv) :
    Prog.now.Told (rebaseObserver limit) (fun _ w ↦ inv w ∧ w.stage = .idle)
      (fun _ _ w ↦ inv w ∧ w.stage ≠ .timed) fun _ _ _ ↦ True := by
  refine Told.call fun s w answer hw hwithin _ ↦ ⟨hwithin, ?_⟩
  cases answer with
  | ok t =>
      refine ⟨hinv w _ rfl rfl hw.1, ?_⟩
      change (if w.stage = .polled then CheckStage.timed else CheckStage.idle) ≠ CheckStage.timed
      simp [hw.2]
  | error e => trivial

theorem told_checkPipelineTerminationConditions (mrIid : ℕ) (state : PipelineWaitState) :
    (checkPipelineTerminationConditions settings mrIid state).Told (rebaseObserver limit)
      (fun _ ↦ CountedState limit state) (fun out s w ↦ SoundRound limit out s w)
      fun _ _ _ ↦ True := by
  have hsteady := steady_countedState limit state
  have hends (result : ProcessingResult) (s : Local) (w : RebaseWatch)
      (h : CountedState limit state w) : SoundRound limit (state, some result) s w :=
    failsWhenExhausted_of_counted h.2 s result
  refine Safe.bind (told_shutdownRequested hsteady) fun stopping ↦ ?_
  split_ifs
  · exact Safe.ret fun s w h ↦ hends _ s w h.1
  · refine Safe.bind (told_now_of_idle hsteady) fun now ↦ ?_
    split_ifs
    · refine Safe.bind ((told_of_follows hsteady (follows_hasLastChance mrIid state)).mono
        (fun _ _ h ↦ h.1) (fun _ _ _ h ↦ h) fun _ _ _ _ ↦ trivial) fun lastChance ↦ ?_
      split_ifs
      · exact Safe.ret fun _ _ h ↦ h
      · exact Safe.bind ((told_of_follows hsteady (follows_of_settles
          (MRStateMachine.keeps_triggerTimeout enters_settles _))).mono (fun _ _ h ↦ h)
          (fun _ _ _ h ↦ h) fun _ _ _ _ ↦ trivial) fun _ ↦ Safe.ret (hends _)
    · refine Safe.bind ((told_verifyMrInQueue mrIid hsteady).mono (fun _ _ h ↦ h)
        (fun _ _ _ h ↦ h) fun _ _ _ _ ↦ trivial) fun reason ↦ ?_
      cases reason with
      | none => exact Safe.ret fun _ _ h ↦ h
      | some reason =>
          exact Safe.bind ((told_of_follows hsteady (follows_of_settles
            (MRStateMachine.keeps_triggerMarkRemoved enters_settles reason))).mono (fun _ _ h ↦ h)
            (fun _ _ _ h ↦ h) fun _ _ _ _ ↦ trivial) fun _ ↦ Safe.ret (hends _)

theorem told_processPipelineIteration (mrIid : ℕ) (state : PipelineWaitState) :
    (processPipelineIteration settings mrIid state).Told (rebaseObserver limit)
      (fun _ ↦ CountedState limit state) (fun out s w ↦ SoundRound limit out s w)
      fun _ _ _ ↦ True := by
  refine Safe.bind (told_checkPipelineTerminationConditions mrIid state) fun out ↦ ?_
  obtain ⟨state', ended⟩ := out
  cases ended with
  | some result => exact Safe.ret fun _ _ h ↦ h
  | none =>
      have hlatest : (Prog.gitlab (.getLatestMrPipeline mrIid)).Follows := Keeps.call rfl
      refine Safe.bind ((told_of_follows (steady_countedState limit state') hlatest).mono
        (fun _ _ h ↦ h) (fun _ _ _ h ↦ h) fun _ _ _ _ ↦ trivial) fun pipeline ↦ ?_
      cases pipeline with
      | none => exact Safe.ret fun _ _ h ↦ h
      | some pipeline => exact told_processPipeline mrIid pipeline state'

/-- The loop sleeps with nothing exhausted. -/
theorem told_sleep {pause : Pause} (state : PipelineWaitState) :
    (Prog.await (.sleep pause)).Told (rebaseObserver limit) (fun _ ↦ CountedState limit state)
      (fun _ _ ↦ CountedState limit state) fun _ _ _ ↦ True := by
  refine Told.call fun s w answer hw hwithin _ ↦ ⟨⟨hwithin.1, ?_⟩, ?_⟩
  · change (w.late || w.exhausted) = false
    rw [hwithin.2, hw.2.exhausted]
    rfl
  · cases answer with
    | ok slept => exact steady_countedState limit state w _ rfl rfl hw
    | error e => trivial

theorem told_pipelineRound (mrIid : ℕ) (state : PipelineWaitState) :
    (pipelineRound settings mrIid state).Told (rebaseObserver limit)
      (fun _ ↦ CountedState limit state)
      (fun next s w ↦ match next with
        | .inl state => CountedState limit state w
        | .inr result => FailsWhenExhausted w s result) fun _ _ _ ↦ True := by
  refine Safe.bind (told_processPipelineIteration mrIid state) fun out ↦ ?_
  obtain ⟨state', ended⟩ := out
  cases ended with
  | some result => exact Safe.ret fun _ _ h ↦ h
  | none =>
      exact Safe.bind (told_sleep state') fun _ ↦ Safe.ret fun _ _ h ↦ h

theorem told_initPipelineWaitState (mrIid : ℕ) :
    (initPipelineWaitState settings mrIid).Told (rebaseObserver limit)
      (fun _ ↦ RebaseWatch.Counted 0)
      (fun state _ w ↦ limit = settings.maxRebaseDuringTesting → CountedState limit state w)
      fun _ _ _ ↦ True := by
  have hreads : (initPipelineWaitState settings mrIid).Asks (fun _ _ ↦ True)
      (fun _ op ↦ op.quiet = true) (fun _ ↦ True)
      (fun state _ ↦ state.rebaseCtx = { maxAttempts := settings.maxRebaseDuringTesting })
      fun _ _ ↦ True := by
    refine Asks.bind (quiet_await rfl) fun item ↦ ?_
    refine Asks.bind (quiet_await rfl) fun startTime ↦ ?_
    exact Asks.bind (quiet_await rfl) fun _ ↦ Asks.ret fun _ _ ↦ rfl
  refine (told_of_quiet steady_counted hreads).mono (fun _ _ h ↦ ⟨trivial, h⟩) ?_
    fun _ _ _ _ ↦ trivial
  rintro state s w ⟨hctx, hcounted⟩ rfl
  exact ⟨congrArg RebaseDuringTestingContext.maxAttempts hctx,
    (congrArg RebaseDuringTestingContext.rebaseCount hctx).symm ▸ hcounted⟩

theorem told_waitForPipeline (mrIid : ℕ) :
    (waitForPipeline settings mrIid).Told (rebaseObserver settings.maxRebaseDuringTesting)
      (fun _ ↦ RebaseWatch.Counted 0) (fun result s w ↦ FailsWhenExhausted w s result)
      fun _ _ _ ↦ True := by
  refine Safe.bind (told_initPipelineWaitState mrIid) fun state ↦ ?_
  have hloop : (Program.loop (pipelineRound settings mrIid) settings.rounds state).Told
      (rebaseObserver settings.maxRebaseDuringTesting)
      (fun _ ↦ CountedState settings.maxRebaseDuringTesting state)
      (fun result s w ↦ FailsWhenExhausted w s result) fun _ _ _ ↦ True :=
    Told.loop (fun state _ ↦ CountedState settings.maxRebaseDuringTesting state)
      (fun state ↦ (told_pipelineRound mrIid state).mono (fun _ _ h ↦ h)
        (fun next _ _ h ↦ by cases next <;> exact h) fun _ _ _ h ↦ h) settings.rounds state
  exact hloop.mono (fun _ _ h ↦ h rfl) (fun _ _ _ h ↦ h) fun _ _ _ h ↦ h

end PipelineHandler

/-- Whatever is answered, one call of `wait_for_pipeline` requests no more rebases than
`max_rebase_during_testing`, and neither sleeps nor rebases after a check that finds the
target branch ahead of the last one: where it returns, the merge request has failed.  Where it
raises, it has rebased and slept no more either, and its caller decides about the merge request. -/
theorem rebases_stay_within_limit (settings : Settings) (mrIid : ℕ) (s : Local)
    (replies : List (Reply Op Op.Answer PyError)) :
    let call := (PipelineHandler.waitForPipeline settings mrIid s).converse replies
    let watch := (rebaseObserver settings.maxRebaseDuringTesting).after {} call.1
    watch.requests ≤ settings.maxRebaseDuringTesting ∧ watch.late = false ∧
      ∀ result s', call.2 = .done (.ok result) s' → FailsWhenExhausted watch s' result := by
  intro call watch
  have hstart : RebaseWatch.Within settings.maxRebaseDuringTesting {} := ⟨Nat.zero_le _, rfl⟩
  obtain ⟨hwithin, hrest⟩ := Task.Safe.converse hstart
    (PipelineHandler.told_waitForPipeline mrIid s {} ⟨rfl, rfl⟩) replies
    (Observer.allows_of_forall _ (fun _ _ ↦ trivial) _ _)
  refine ⟨hwithin.1, hwithin.2, fun result s' hdone ↦ ?_⟩
  change Task.Safe _ _ _ _ _ call.2 _ at hrest
  rw [hdone] at hrest
  exact hrest

end MergeQueue
