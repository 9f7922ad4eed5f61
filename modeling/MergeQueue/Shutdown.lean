import MergeQueue.PipelineSteps
import MergeQueue.RequeueTransfer

/-!
# A shutdown during a wait

A wait that sees the shutdown event ends without a result.  The waits of the workflow pass
that on as an error, and leave the row where it is.  The wait for a rebase during testing
raises instead, and the loop that waits for the pipeline takes what it raises for a failure.
-/

namespace MergeQueue

open Interleave (Observer Program Reply Task)
open Interleave.Program (Asks Keeps Leaves Safe Told)
open QueueCompletion (enters_settles)

/-! ## What is noted of one call -/

/-- The calls that wait for GitLab. -/
inductive WaitingCall
  | processRebase
  | waitForPipeline
  deriving DecidableEq, Repr

def WaitingCall.program (settings : Settings) (mrIid : ℕ) : WaitingCall → Prog ProcessingResult
  | processRebase => RebaseHandler.processRebase settings mrIid
  | waitForPipeline => PipelineHandler.waitForPipeline settings mrIid

/-- What is noted of a call: the first reading of the clock, whether the shutdown event was
seen, whether GitLab rebases during testing, and whether the lifecycle was ended. -/
structure ShutdownWatch where
  start : Option ℤ := none
  seen : Bool := false
  waiting : Bool := false
  ended : Bool := false
  deriving DecidableEq, Repr

/-- The operation moves a row to merged, failed or removed, or prepares a completion. -/
def Op.ends : Op → Bool
  | db (.updateMrState _ _ state _) =>
      decide (state = .merged) || decide (state = .failed) || decide (state = .removed)
  | db (.prepareCompletion ..) | db (.finalizeCompletion ..) | db (.completeMr ..)
  | db (.removeFromQueue ..) => true
  | _ => false

/-- The pipeline has no result yet. -/
def PipelineStatus.goesOn (status : PipelineStatus) : Bool :=
  decide (status ≠ .success) && decide (status ≠ .canceled) && decide (status ≠ .failed) &&
    (PipelineHandler.nonActionable status).isNone

namespace ShutdownWatch

def observe (call : WaitingCall) (w : ShutdownWatch) : ProgExchange → ShutdownWatch
  | ⟨.now, .ok t⟩ => { w with start := some (w.start.getD t) }
  | ⟨.shutdownRequested, .ok stopping⟩ => { w with seen := w.seen || stopping }
  | ⟨.sleep _, .ok slept⟩ => { w with seen := w.seen || !slept }
  | ⟨.gitlab (.rebaseMr _), _⟩ => { w with waiting := decide (call = .waitForPipeline) }
  | ⟨.gitlab (.checkRebaseStatus _), .ok (running, conflicts, _)⟩ =>
      { w with waiting := w.waiting && (running || conflicts) }
  | ⟨op, _⟩ => { w with ended := w.ended || op.ends }

/-- The shutdown event stays set, pipelines have no result yet, and after the event was seen
no rebase has taken too long. -/
def goesOn (settings : Settings) (call : WaitingCall) (w : ShutdownWatch) : ProgExchange → Bool
  | ⟨.now, .ok t⟩ =>
      decide (call = .processRebase → w.seen = true → ∀ start ∈ w.start,
        t - start ≤ settings.rebaseTimeoutSeconds * 1000000)
  | ⟨.shutdownRequested, .ok stopping⟩ => decide (w.seen = true → (stopping : Bool) = true)
  | ⟨.sleep _, .ok slept⟩ => decide (w.seen = true → (slept : Bool) = false)
  | ⟨.gitlab (.getLatestMrPipeline _), .ok pipeline⟩ =>
      decide (∀ p ∈ (pipeline : Option Pipeline), p.status.goesOn = true)
  | _ => true

/-- The shutdown event is not seen while GitLab rebases during testing. -/
def seenElsewhere (w : ShutdownWatch) : ProgExchange → Bool
  | ⟨.shutdownRequested, .ok stopping⟩ => decide (w.waiting = true → (stopping : Bool) = false)
  | ⟨.sleep _, .ok slept⟩ => decide (w.waiting = true → (slept : Bool) = true)
  | _ => true

end ShutdownWatch

def waitObserver (settings : Settings) (call : WaitingCall) :
    Observer Op Op.Answer PyError ShutdownWatch where
  observe := ShutdownWatch.observe call
  allowed w e := w.goesOn settings call e = true
  keeps w := w.seen = true → w.ended = false

def shutdownObserver (settings : Settings) (call : WaitingCall) :
    Observer Op Op.Answer PyError ShutdownWatch :=
  { waitObserver settings call with
    allowed := fun w e ↦ w.goesOn settings call e = true ∧ w.seenElsewhere e = true }

instance (settings : Settings) (call : WaitingCall) (w : ShutdownWatch) (e : ProgExchange) :
    Decidable ((waitObserver settings call).allowed w e) :=
  inferInstanceAs (Decidable (w.goesOn settings call e = true))

instance (settings : Settings) (call : WaitingCall) (w : ShutdownWatch) (e : ProgExchange) :
    Decidable ((shutdownObserver settings call).allowed w e) :=
  inferInstanceAs (Decidable (w.goesOn settings call e = true ∧ w.seenElsewhere e = true))

/-! ## What the operations do to the record -/

/-- The operation tells nothing of the event and ends no lifecycle. -/
def Op.still : Op → Bool
  | shutdownRequested | sleep _ => false
  | op => !op.ends

theorem Op.still_of_tends {op : Op} (h : op.tends = true) : op.still = true := by
  cases op with
  | shutdownRequested | sleep => cases h
  | db q => cases q <;> first | rfl | cases h
  | _ => rfl

namespace ShutdownWatch

variable {call : WaitingCall} {w : ShutdownWatch}

/-- The clock was first read at the time that is given. -/
def Started (clock : Option ℤ) (w : ShutdownWatch) : Prop := ∀ t ∈ clock, w.start = some t

/-- The event was not seen and the lifecycle goes on. -/
structure Fresh (clock : Option ℤ) (w : ShutdownWatch) : Prop where
  seen : w.seen = false
  ended : w.ended = false
  started : w.Started clock

/-- The lifecycle goes on, whether the event was seen or not. -/
structure Calm (clock : Option ℤ) (w : ShutdownWatch) : Prop where
  ended : w.ended = false
  started : w.Started clock

theorem Fresh.calm {clock : Option ℤ} (h : w.Fresh clock) : w.Calm clock := ⟨h.ended, h.started⟩

/-- What holds of a record also holds of one that agrees with it. -/
structure Same (w w' : ShutdownWatch) : Prop where
  seen : w'.seen = w.seen
  ended : w'.ended = w.ended
  start : ∀ t, w.start = some t → w'.start = some t

def Steady (inv : ShutdownWatch → Prop) : Prop := ∀ w w', Same w w' → inv w → inv w'

theorem steady_fresh (clock : Option ℤ) : Steady (Fresh clock) := fun _ _ hsame h ↦
  ⟨hsame.seen.trans h.seen, hsame.ended.trans h.ended, fun t ht ↦ hsame.start t (h.started t ht)⟩

theorem steady_calm (clock : Option ℤ) : Steady (Calm clock) := fun _ _ hsame h ↦
  ⟨hsame.ended.trans h.ended, fun t ht ↦ hsame.start t (h.started t ht)⟩

theorem steady_unseen : Steady fun w ↦ w.seen = false := fun _ _ hsame h ↦ hsame.seen.trans h

variable (call w)

/-- A request to GitLab changes at most whether it rebases during testing. -/
theorem exists_observe_gitlab (request : GitLabCall)
    (answer : Except PyError (Op.gitlab request).Answer) :
    ∃ waiting, observe call w ⟨.gitlab request, answer⟩ = { w with waiting } := by
  have hrefl : ∃ waiting, { w with ended := w.ended || false } = { w with waiting } :=
    ⟨w.waiting, by rw [Bool.or_false]⟩
  cases request with
  | rebaseMr => exact ⟨_, rfl⟩
  | checkRebaseStatus iid =>
      rcases answer with e | ⟨running, conflicts, message⟩
      · exact hrefl
      · exact ⟨_, rfl⟩
  | _ => exact hrefl

theorem same_observe {op : Op} (h : op.still = true) (answer : Except PyError op.Answer) :
    Same w (observe call w ⟨op, answer⟩) := by
  have hrefl : Same w { w with ended := w.ended || false } :=
    ⟨rfl, Bool.or_false _, fun _ ht ↦ ht⟩
  cases op with
  | shutdownRequested | sleep => cases h
  | now =>
      cases answer with
      | error e => exact hrefl
      | ok t => exact ⟨rfl, rfl, fun start hstart ↦ by simp [observe, hstart]⟩
  | gitlab request =>
      obtain ⟨waiting, hobserve⟩ := exists_observe_gitlab call w request answer
      rw [hobserve]
      exact ⟨rfl, rfl, fun _ ht ↦ ht⟩
  | db q =>
      have hends : (Op.db q).ends = false := by simpa [Op.still] using h
      have hobserve : observe call w ⟨.db q, answer⟩ =
          { w with ended := w.ended || (Op.db q).ends } := rfl
      rw [hobserve, hends]
      exact hrefl
  | _ => exact hrefl

/-- What neither asks for the event nor sleeps does not see it. -/
theorem seen_observe {op : Op} (h : op.follows = true ∨ op.still = true)
    (answer : Except PyError op.Answer) : (observe call w ⟨op, answer⟩).seen = w.seen := by
  by_cases hstill : op.still = true
  · exact (same_observe call w hstill answer).seen
  · have hfollows : op.follows = true := h.resolve_right hstill
    cases op with
    | shutdownRequested | sleep => cases hfollows
    | db => rfl
    | _ => exact absurd rfl hstill

end ShutdownWatch

/-! ## Programs that see nothing of the event -/

namespace Shutdown

section Told

variable {settings : Settings} {call : WaitingCall} {α : Type} {p : Prog α}

theorem told_of_still {inv : ShutdownWatch → Prop} (hinv : ShutdownWatch.Steady inv)
    (h : p.Keeps (fun op ↦ op.still = true) fun _ ↦ True) :
    p.Told (shutdownObserver settings call) (fun _ ↦ inv) (fun _ _ ↦ inv) fun _ _ ↦ inv := by
  have htold : p.Told (shutdownObserver settings call) (fun _ w ↦ True ∧ inv w)
      (fun _ _ w ↦ True ∧ inv w) fun _ _ w ↦ True ∧ inv w := by
    refine Told.of_asks h fun s op w answer hop hw hkeeps _ ↦ ?_
    have hsame := ShutdownWatch.same_observe call w hop answer
    exact ⟨fun hseen ↦ hsame.ended.trans (hkeeps (hsame.seen.symm.trans hseen)),
      hinv w _ hsame hw⟩
  exact htold.mono (fun _ _ h ↦ ⟨trivial, h⟩) (fun _ _ _ h ↦ h.2) fun _ _ _ h ↦ h.2

/-- A program that follows a pipeline may end the lifecycle, but does not see the event. -/
theorem told_unseen_of_asks {post : α → Local → Prop}
    (h : p.Asks (fun _ _ ↦ True) (fun _ op ↦ op.follows = true ∨ op.still = true) (fun _ ↦ True)
      post fun _ _ ↦ True) :
    p.Told (shutdownObserver settings call) (fun _ w ↦ w.seen = false)
      (fun out s w ↦ post out s ∧ w.seen = false) fun _ _ _ ↦ True := by
  have htold : p.Told (shutdownObserver settings call) (fun _ w ↦ True ∧ w.seen = false)
      (fun out s w ↦ post out s ∧ w.seen = false) fun _ _ w ↦ True ∧ w.seen = false := by
    refine Told.of_asks h fun s op w answer hop hw hkeeps _ ↦ ?_
    have hseen := (ShutdownWatch.seen_observe call w hop answer).trans hw
    exact ⟨fun htrue ↦ absurd (hseen.symm.trans htrue) Bool.false_ne_true, hseen⟩
  exact htold.mono (fun _ _ h ↦ ⟨trivial, h⟩) (fun _ _ _ h ↦ h) fun _ _ _ _ ↦ trivial

theorem told_unseen_of_settles (h : p.Keeps (fun op ↦ op.settles = true) fun _ ↦ True) :
    p.Told (shutdownObserver settings call) (fun _ w ↦ w.seen = false)
      (fun _ _ w ↦ w.seen = false) fun _ _ _ ↦ True := by
  have hasks : p.Keeps (fun op ↦ op.follows = true ∨ op.still = true) fun _ ↦ True :=
    h.mono fun _ hop ↦ Or.inl (Op.follows_of_settles hop)
  exact (told_unseen_of_asks hasks).mono (fun _ _ h ↦ h) (fun _ _ _ h ↦ h.2) fun _ _ _ h ↦ h

/-- What an operation that raises leaves alone. -/
theorem same_observe_error (call : WaitingCall) (w : ShutdownWatch) {op : Op}
    (h : op = .shutdownRequested ∨ ∃ pause, op = .sleep pause) (e : PyError) :
    ShutdownWatch.Same w (ShutdownWatch.observe call w ⟨op, .error e⟩) := by
  rcases h with rfl | ⟨pause, rfl⟩ <;> exact ⟨rfl, Bool.or_false _, fun _ ht ↦ ht⟩

theorem fresh_of_calm {clock : Option ℤ} {w : ShutdownWatch} (h : w.Calm clock)
    (hseen : ¬ w.seen = true) : w.Fresh clock :=
  ⟨Bool.eq_false_iff.mpr hseen, h.ended, h.started⟩

/-- Asked after the event was seen, the answer is the same. -/
theorem told_shutdownRequested {clock : Option ℤ} {inv : ShutdownWatch → Prop}
    (hinv : ShutdownWatch.Steady inv) (hcalm : ∀ w, inv w → w.Calm clock) :
    (Prog.await .shutdownRequested).Told (shutdownObserver settings call) (fun _ ↦ inv)
      (fun stopping _ w ↦ if stopping then w.Calm clock else w.Fresh clock) fun _ _ ↦ inv := by
  refine Told.call fun s w answer hw hkeeps hallowed ↦ ?_
  have hnow : w.Calm clock := hcalm w hw
  cases answer with
  | error e =>
      have hsame := same_observe_error call w (Or.inl rfl) e
      exact ⟨fun _ ↦ hsame.ended.trans hnow.ended, hinv w _ hsame hw⟩
  | ok stopping =>
      have hagain : w.seen = true → stopping = true := of_decide_eq_true hallowed.1
      have hobserve : (shutdownObserver settings call).observe w
          ⟨.shutdownRequested, .ok stopping⟩ = { w with seen := w.seen || stopping } := rfl
      rw [hobserve]
      refine ⟨fun _ ↦ hnow.ended, ?_⟩
      cases stopping with
      | true => exact ⟨hnow.ended, hnow.started⟩
      | false =>
          rw [Bool.or_false]
          exact fresh_of_calm hnow fun hseen ↦ absurd (hagain hseen) Bool.false_ne_true

/-- A sleep that is over has not seen the event. -/
theorem told_sleep {clock : Option ℤ} {inv : ShutdownWatch → Prop}
    (hinv : ShutdownWatch.Steady inv) (hcalm : ∀ w, inv w → w.Calm clock) (pause : Pause) :
    (Prog.await (.sleep pause)).Told (shutdownObserver settings call) (fun _ ↦ inv)
      (fun slept _ w ↦ if slept then w.Fresh clock else w.Calm clock) fun _ _ ↦ inv := by
  refine Told.call fun s w answer hw hkeeps hallowed ↦ ?_
  have hnow : w.Calm clock := hcalm w hw
  cases answer with
  | error e =>
      have hsame := same_observe_error call w (Or.inr ⟨pause, rfl⟩) e
      exact ⟨fun _ ↦ hsame.ended.trans hnow.ended, hinv w _ hsame hw⟩
  | ok slept =>
      have hagain : w.seen = true → slept = false := of_decide_eq_true hallowed.1
      have hobserve : (shutdownObserver settings call).observe w
          ⟨.sleep pause, .ok slept⟩ = { w with seen := w.seen || !slept } := rfl
      rw [hobserve]
      refine ⟨fun _ ↦ hnow.ended, ?_⟩
      cases slept with
      | false => exact ⟨hnow.ended, hnow.started⟩
      | true =>
          rw [Bool.not_true, Bool.or_false]
          exact fresh_of_calm hnow fun hseen ↦ absurd (hagain hseen).symm Bool.false_ne_true

theorem told_now {inv : ShutdownWatch → Prop} (hinv : ShutdownWatch.Steady inv) :
    Prog.now.Told (shutdownObserver settings call) (fun _ ↦ inv) (fun _ _ ↦ inv)
      fun _ _ ↦ inv :=
  told_of_still hinv (Keeps.call rfl)

/-- A request to GitLab tells nothing of the event. -/
theorem told_gitlab {inv : ShutdownWatch → Prop} (hinv : ShutdownWatch.Steady inv)
    (request : GitLabCall) :
    (Prog.gitlab request).Told (shutdownObserver settings call) (fun _ ↦ inv) (fun _ _ ↦ inv)
      fun _ _ ↦ inv :=
  told_of_still hinv (Keeps.call rfl)

/-- What is known where a program raises may be left out. -/
theorem told_raising {pre : Local → ShutdownWatch → Prop} {post : α → Local → ShutdownWatch → Prop}
    {except : PyError → Local → ShutdownWatch → Prop}
    (h : p.Told (shutdownObserver settings call) pre post except) :
    p.Told (shutdownObserver settings call) pre post fun _ _ _ ↦ True :=
  h.mono (fun _ _ h ↦ h) (fun _ _ _ h ↦ h) fun _ _ _ _ ↦ trivial

/-! ## Waits -/

/-- The steps of a wait whose polls see nothing of the event. -/
def waitSteps (α : Type) (clock : Option ℤ) : WaitSteps α ShutdownWatch where
  between _ _ := ShutdownWatch.Fresh clock
  asked _ _ := ShutdownWatch.Fresh clock
  ready _ _ := ShutdownWatch.Fresh clock
  polled _ _ := ShutdownWatch.Fresh clock
  resting _ _ := ShutdownWatch.Fresh clock
  done _ _ := ShutdownWatch.Fresh clock
  lapsed _ := ShutdownWatch.Fresh clock
  stopped _ := ShutdownWatch.Calm clock

theorem told_wait {clock : Option ℤ} {timeoutSeconds interval : ℕ} {pollFn : Prog (Option α)}
    (hpoll : pollFn.Told (shutdownObserver settings call) (fun _ ↦ ShutdownWatch.Fresh clock)
      (fun _ _ ↦ ShutdownWatch.Fresh clock) fun _ _ ↦ ShutdownWatch.Fresh clock) :
    (pollUntilDone settings timeoutSeconds interval pollFn).Told (shutdownObserver settings call)
      (fun _ ↦ ShutdownWatch.Fresh clock) (waitSteps α clock).ofOutcome
      fun _ _ ↦ ShutdownWatch.Fresh clock := by
  have hfresh := ShutdownWatch.steady_fresh clock
  have hcalm : ∀ w, ShutdownWatch.Fresh clock w → ShutdownWatch.Calm clock w :=
    fun _ h ↦ h.calm
  refine told_pollUntilDone (waitSteps α clock) (told_now hfresh) (fun _ ↦ ?_) (fun _ ↦ ?_)
    (fun _ ↦ ?_) (fun _ ↦ ?_) fun _ ↦ ?_
  · refine (told_shutdownRequested hfresh hcalm).mono (fun _ _ h ↦ h) (fun stopping _ _ h ↦ ?_)
      fun _ _ _ h ↦ h
    cases stopping <;> exact h
  · refine (told_now hfresh).mono (fun _ _ h ↦ h) (fun t _ _ h ↦ ?_) fun _ _ _ h ↦ h
    split_ifs <;> exact h
  · refine hpoll.mono (fun _ _ h ↦ h) (fun out _ _ h ↦ ?_) fun _ _ _ h ↦ h
    cases out <;> exact h
  · refine (told_now hfresh).mono (fun _ _ h ↦ h) (fun t _ _ h ↦ ?_) fun _ _ _ h ↦ h
    split_ifs <;> exact h
  · refine (told_sleep hfresh hcalm _).mono (fun _ _ h ↦ h) (fun slept _ _ h ↦ ?_)
      fun _ _ _ h ↦ h
    cases slept <;> exact h

end Told

/-! ## The rebase -/

/-- A result that the event brought about is an error. -/
def Answers (w : ShutdownWatch) (result : ProcessingResult) : Prop :=
  w.seen = true → result = .error

theorem answers_of_unseen {w : ShutdownWatch} (h : w.seen = false) (result : ProcessingResult) :
    Answers w result :=
  fun htrue ↦ absurd (h.symm.trans htrue) Bool.false_ne_true

section Rebase

open RebaseHandler

variable {settings : Settings} {call : WaitingCall} {clock : Option ℤ}

theorem still_tryCreatePipeline (sourceBranch newSha : String) (fallbackPipelineId : Option ℕ) :
    (tryCreatePipeline sourceBranch newSha fallbackPipelineId).Keeps (fun op ↦ op.still = true)
      fun _ ↦ True := by
  refine keeps_catching (Keeps.bind (Keeps.call rfl) fun _ ↦ Keeps.ret _) fun e ↦ ?_
  split_ifs
  · exact Keeps.ret _
  · cases fallbackPipelineId with
    | none => exact Keeps.throw _
    | some id =>
        exact keeps_catching (Keeps.bind (Keeps.call rfl) fun _ ↦ Keeps.ret _) fun _ ↦ Keeps.ret _

theorem still_resolveCurrentPipeline (mr : MergeRequest) (pipeline : Option Pipeline) :
    (resolveCurrentPipeline mr pipeline).Keeps (fun op ↦ op.still = true) fun _ ↦ True := by
  unfold resolveCurrentPipeline
  simp only
  split
  · exact Keeps.ret _
  · exact Keeps.bind (still_tryCreatePipeline _ _ _) fun _ ↦ Keeps.ret _

theorem still_checkReusePipeline (mrIid : ℕ) :
    (checkReusePipeline mrIid).Keeps (fun op ↦ op.still = true) fun _ ↦ True :=
  Keeps.bind (Keeps.call rfl) fun _ ↦ Keeps.bind (Keeps.call rfl) fun _ ↦
    still_resolveCurrentPipeline _ _

theorem still_enterTesting (pipeline : Pipeline) (sha : String) :
    (enterTesting settings pipeline sha).Keeps (fun op ↦ op.still = true) fun _ ↦ True := by
  refine Keeps.bind ((Leaves.mono (MRNotifier.tends_buildPipelineUrl _) fun _ ↦
    Op.still_of_tends).keeps _) fun url ↦ ?_
  exact MRStateMachine.keeps_triggerRebaseComplete _ _ _ (fun _ ↦ Op.still_of_tends)
    fun _ _ ↦ rfl

/-- What holds after a poll of the rebase: a result is an answer, and without one the
lifecycle goes on. -/
def Noted (clock : Option ℤ) (out : Option ProcessingResult) (w : ShutdownWatch) : Prop :=
  match out with
  | some result => Answers w result
  | none => w.Calm clock

/-- Testing starts only where the event was not seen. -/
theorem told_enterTesting (pipeline : Pipeline) (sha : String) :
    (enterTesting settings pipeline sha).Told (shutdownObserver settings call)
      (fun _ ↦ ShutdownWatch.Fresh clock)
      (fun _ _ w ↦ ∀ result, Answers w result) fun _ _ _ ↦ True :=
  (told_of_still (ShutdownWatch.steady_fresh clock) (still_enterTesting pipeline sha)).mono
    (fun _ _ h ↦ h) (fun _ _ _ h ↦ answers_of_unseen h.seen) fun _ _ _ _ ↦ trivial

theorem told_startTestingWithoutRebase (mrIid : ℕ) (mr : MergeRequest)
    (pipeline : Option Pipeline) :
    (startTestingWithoutRebase settings mrIid mr pipeline).Told (shutdownObserver settings call)
      (fun _ ↦ ShutdownWatch.Fresh clock) (fun result _ w ↦ Answers w result)
      fun _ _ _ ↦ True := by
  have hfresh := ShutdownWatch.steady_fresh clock
  refine Safe.bind (told_raising (told_of_still hfresh (still_resolveCurrentPipeline mr pipeline)))
    fun resolved ↦ ?_
  cases resolved with
  | some entry => exact Safe.bind (told_enterTesting _ _) fun _ ↦ Safe.ret fun _ _ h ↦ h _
  | none =>
      have hreuse : (checkReusePipeline mrIid).Told (shutdownObserver settings call)
          (fun _ ↦ ShutdownWatch.Fresh clock) (fun _ _ ↦ ShutdownWatch.Fresh clock)
          fun _ _ ↦ ShutdownWatch.Fresh clock :=
        told_of_still hfresh (still_checkReusePipeline mrIid)
      refine Safe.bind (told_raising (told_wait hreuse)) fun outcome ↦ ?_
      cases outcome with
      | completed entry =>
          exact Safe.bind (told_enterTesting _ _) fun _ ↦ Safe.ret fun _ _ h ↦ h _
      | shutdownRequested => exact Safe.ret fun _ _ _ _ ↦ rfl
      | timedOut => exact Safe.throw fun _ _ _ ↦ trivial

theorem still_checkPostRebasePipeline (mrIid : ℕ) (old : RebaseContext) :
    (checkPostRebasePipeline mrIid old).Keeps (fun op ↦ op.still = true) fun _ ↦ True := by
  refine Keeps.bind (Keeps.call rfl) fun mr ↦ ?_
  split_ifs
  · exact Keeps.ret _
  · refine Keeps.bind (Keeps.call rfl) fun pipeline ↦ ?_
    cases pipeline with
    | none => exact Keeps.ret _
    | some pipeline =>
        simp only
        split_ifs <;> exact Keeps.ret _

/-- A wait that was stopped has no pipeline to show. -/
theorem told_waitForPostRebasePipeline (mrIid : ℕ) (old : RebaseContext) :
    (waitForPostRebasePipeline settings mrIid old).Told (shutdownObserver settings call)
      (fun _ ↦ ShutdownWatch.Fresh clock)
      (fun out _ w ↦ w.Calm clock ∧ (out.1.isSome = true → w.Fresh clock))
      fun _ _ _ ↦ True := by
  have hfresh := ShutdownWatch.steady_fresh clock
  have hcheck : (checkPostRebasePipeline mrIid old).Told (shutdownObserver settings call)
      (fun _ ↦ ShutdownWatch.Fresh clock) (fun _ _ ↦ ShutdownWatch.Fresh clock)
      fun _ _ ↦ ShutdownWatch.Fresh clock :=
    told_of_still hfresh (still_checkPostRebasePipeline mrIid old)
  refine Safe.bind (told_raising (told_wait hcheck)) fun outcome ↦ ?_
  cases outcome with
  | completed result => exact Safe.ret fun _ _ h ↦ ⟨ShutdownWatch.Fresh.calm h, fun _ ↦ h⟩
  | shutdownRequested => exact Safe.ret fun _ _ h ↦ ⟨h, fun hsome ↦ by cases hsome⟩
  | timedOut =>
      refine Safe.bind (told_raising (told_gitlab hfresh _)) fun mr ↦ ?_
      split_ifs
      · exact Safe.ret fun _ _ h ↦ ⟨h.calm, fun _ ↦ h⟩
      · exact Safe.bind (told_raising (told_gitlab hfresh _)) fun _ ↦
          Safe.ret fun _ _ h ↦ ⟨h.calm, fun _ ↦ h⟩

/-- Only a rebase that found a pipeline, or was not stopped, goes on to testing. -/
theorem told_afterRebase (mrIid : ℕ) (old : RebaseContext) :
    (afterRebase settings mrIid old).Told (shutdownObserver settings call)
      (fun _ ↦ ShutdownWatch.Fresh clock) (fun out _ ↦ Noted clock out) fun _ _ _ ↦ True := by
  have hfresh := ShutdownWatch.steady_fresh clock
  refine Safe.bind (told_waitForPostRebasePipeline mrIid old) fun out ↦ ?_
  obtain ⟨pipeline, newSha⟩ := out
  cases pipeline with
  | some pipeline =>
      exact Safe.bind ((told_enterTesting pipeline newSha).mono (fun _ _ h ↦ h.2 rfl)
        (fun _ _ _ h ↦ h) fun _ _ _ h ↦ h) fun _ ↦ Safe.ret fun _ _ h ↦ h _
  | none =>
      simp only
      split_ifs
      · have hcalm := ShutdownWatch.steady_calm clock
        refine Safe.bind (told_raising ((told_shutdownRequested hcalm fun _ h ↦ h).mono
          (fun _ _ h ↦ h.1) (fun _ _ _ h ↦ h) fun _ _ _ h ↦ h)) fun stopping ↦ ?_
        cases stopping with
        | true => exact Safe.ret fun _ _ h ↦ h
        | false =>
            refine Safe.bind (told_raising (told_gitlab hfresh _)) fun mr ↦ ?_
            refine Safe.bind (told_raising (told_gitlab hfresh _)) fun current ↦ ?_
            exact Safe.bind (told_startTestingWithoutRebase mrIid mr current) fun result ↦
              Safe.ret fun _ _ h ↦ h
      · exact Safe.ret fun _ _ h ↦ h.1

/-- A conflict ends the lifecycle, which is only found where the event was not seen. -/
theorem told_conflict (mrIid : ℕ) (message : String) :
    (do
      let conflictedFiles : List String ← Prog.gitlab (.getMrConflicts mrIid)
      MRStateMachine.triggerRebaseFailed settings conflictedFiles message
      return some ProcessingResult.conflict : Prog (Option ProcessingResult)).Told
      (shutdownObserver settings call) (fun _ w ↦ w.seen = false)
      (fun out _ w ↦ out = some .conflict ∧ w.seen = false) fun _ _ _ ↦ True := by
  refine Safe.bind (told_raising (told_gitlab ShutdownWatch.steady_unseen _)) fun files ↦ ?_
  have hfailed := MRStateMachine.keeps_triggerRebaseFailed (@enters_settles settings) files message
  exact Safe.bind (told_unseen_of_settles hfailed) fun _ ↦
    Safe.ret fun _ _ h ↦ ⟨rfl, h⟩

theorem told_checkRebase (mrIid : ℕ) (old : RebaseContext) :
    (checkRebase settings mrIid old).Told (shutdownObserver settings call)
      (fun _ ↦ ShutdownWatch.Fresh clock) (fun out _ ↦ Noted clock out) fun _ _ _ ↦ True := by
  refine Safe.bind (told_raising (told_gitlab (ShutdownWatch.steady_fresh clock) _))
    fun status ↦ ?_
  obtain ⟨running, conflicts, message⟩ := status
  simp only
  split_ifs
  · refine (told_conflict mrIid _).mono (fun _ _ h ↦ h.seen) (fun out _ _ h ↦ ?_) fun _ _ _ h ↦ h
    obtain ⟨rfl, hunseen⟩ := h
    exact answers_of_unseen hunseen _
  · exact Safe.ret fun _ _ h ↦ h.calm
  · exact told_afterRebase mrIid old

/-- Nothing has happened yet, and the clock was not read. -/
structure Unread (w : ShutdownWatch) : Prop where
  seen : w.seen = false
  ended : w.ended = false
  start : w.start = none

theorem told_gitlab_of_unread (request : GitLabCall) :
    (Prog.gitlab request).Told (shutdownObserver settings call) (fun _ ↦ Unread)
      (fun _ _ ↦ Unread) fun _ _ ↦ Unread := by
  refine Told.call fun s w answer hw _ _ ↦ ?_
  obtain ⟨b, hobserve⟩ : ∃ b, (shutdownObserver settings call).observe w
      ⟨.gitlab request, answer⟩ = { w with waiting := b } :=
    ShutdownWatch.exists_observe_gitlab call w request answer
  rw [hobserve]
  refine ⟨fun hseen ↦ hw.ended, ?_⟩
  cases answer <;> exact ⟨hw.seen, hw.ended, hw.start⟩

theorem Unread.fresh {w : ShutdownWatch} (h : Unread w) : w.Fresh none :=
  ⟨h.seen, h.ended, fun _ ht ↦ by cases ht⟩

/-- The steps of the wait for the rebase, which is looked at again after a stopped wait for
its pipeline. -/
def rebaseSteps : WaitSteps ProcessingResult ShutdownWatch where
  between start _ := ShutdownWatch.Fresh (some start)
  asked start _ := ShutdownWatch.Fresh (some start)
  ready start _ := ShutdownWatch.Fresh (some start)
  polled start _ := ShutdownWatch.Calm (some start)
  resting start _ := ShutdownWatch.Calm (some start)
  done result _ w := Answers w result
  lapsed _ w := w.seen = false
  stopped _ _ := True

theorem told_firstNow : Prog.now.Told (shutdownObserver settings call) (fun _ ↦ Unread)
    (fun start _ ↦ ShutdownWatch.Fresh (some start)) fun _ _ _ ↦ True := by
  refine Told.call fun s w answer hw _ _ ↦ ?_
  cases answer with
  | error e => exact ⟨fun _ ↦ (Bool.or_false _).trans hw.ended, trivial⟩
  | ok t =>
      refine ⟨fun _ ↦ hw.ended, hw.seen, hw.ended, fun start hstart ↦ ?_⟩
      cases hstart
      exact congrArg (fun start : Option ℤ ↦ some (start.getD t)) hw.start

/-- Once the event was seen, the time for the rebase is not up. -/
theorem told_now_of_calm (start : ℤ) :
    Prog.now.Told (shutdownObserver settings .processRebase)
      (fun _ ↦ ShutdownWatch.Calm (some start))
      (fun now _ w ↦ if expired start now settings.rebaseTimeoutSeconds then w.seen = false
        else w.Calm (some start)) fun _ _ _ ↦ True := by
  refine Told.call fun s w answer hw _ hallowed ↦ ?_
  have hstart : w.start = some start := hw.started start rfl
  cases answer with
  | error e => exact ⟨fun _ ↦ (Bool.or_false _).trans hw.ended, trivial⟩
  | ok now =>
      refine ⟨fun _ ↦ hw.ended, ?_⟩
      have hintime : w.seen = true → now - start ≤ settings.rebaseTimeoutSeconds * 1000000 :=
        fun hseen ↦ of_decide_eq_true hallowed.1 rfl hseen start hstart
      have hstill : Op.now.still = true := rfl
      have hcalm := (ShutdownWatch.steady_calm (some start)) w _
        (ShutdownWatch.same_observe .processRebase w hstill (.ok now)) hw
      by_cases hexpired : expired start now settings.rebaseTimeoutSeconds = true
      · have hlate : ¬ now - start ≤ settings.rebaseTimeoutSeconds * 1000000 :=
          not_le.mpr (of_decide_eq_true hexpired)
        exact (if_pos hexpired).mpr (Bool.eq_false_iff.mpr fun hseen ↦ hlate (hintime hseen))
      · exact (if_neg hexpired).mpr hcalm

theorem told_pollRebase {interval : ℕ} {pollFn : Prog (Option ProcessingResult)}
    (hpoll : ∀ clock, pollFn.Told (shutdownObserver settings .processRebase)
      (fun _ ↦ ShutdownWatch.Fresh clock) (fun out _ ↦ Noted clock out) fun _ _ _ ↦ True) :
    (pollUntilDone settings settings.rebaseTimeoutSeconds interval pollFn).Told
      (shutdownObserver settings .processRebase) (fun _ ↦ Unread) rebaseSteps.ofOutcome
      fun _ _ _ ↦ True := by
  refine told_pollUntilDone rebaseSteps told_firstNow (fun start ↦ ?_) (fun start ↦ ?_)
    (fun start ↦ ?_) (fun start ↦ told_now_of_calm start) fun start ↦ ?_
  · have hfresh := ShutdownWatch.steady_fresh (some start)
    refine (told_raising (told_shutdownRequested hfresh fun _ h ↦ h.calm)).mono (fun _ _ h ↦ h)
      (fun stopping _ _ h ↦ ?_) fun _ _ _ h ↦ h
    cases stopping with
    | true => trivial
    | false => exact h
  · refine (told_raising (told_now (ShutdownWatch.steady_fresh (some start)))).mono
      (fun _ _ h ↦ h) (fun now _ _ h ↦ ?_) fun _ _ _ h ↦ h
    split_ifs
    · exact h.seen
    · exact h
  · refine (hpoll (some start)).mono (fun _ _ h ↦ h) (fun out _ _ h ↦ ?_) fun _ _ _ h ↦ h
    cases out <;> exact h
  · have hcalm := ShutdownWatch.steady_calm (some start)
    refine (told_raising (told_sleep hcalm (fun _ h ↦ h) (.poll interval))).mono (fun _ _ h ↦ h)
      (fun slept _ _ h ↦ ?_) fun _ _ _ h ↦ h
    cases slept with
    | true => exact h
    | false => trivial

theorem told_waitForRebase (mrIid : ℕ) (old : RebaseContext) :
    (waitForRebase settings mrIid old).Told (shutdownObserver settings .processRebase)
      (fun _ ↦ Unread) (fun result _ w ↦ Answers w result) fun _ _ _ ↦ True := by
  refine Safe.bind (told_pollRebase fun _ ↦ told_checkRebase mrIid old) fun outcome ↦ ?_
  cases outcome with
  | completed result => exact Safe.ret fun _ _ h ↦ h
  | shutdownRequested => exact Safe.ret fun _ _ _ _ ↦ rfl
  | timedOut =>
      have htimeout := MRStateMachine.keeps_triggerTimeout (@enters_settles settings)
        (max 1 (settings.rebaseTimeoutSeconds / 3600))
      exact Safe.bind (told_unseen_of_settles htimeout) fun _ ↦
        Safe.ret fun _ _ h ↦ answers_of_unseen h _

theorem told_initiateRebase (mrIid : ℕ) :
    (initiateRebase settings mrIid).Told (shutdownObserver settings call) (fun _ ↦ Unread)
      (fun out _ w ↦ match out with
        | some result => Answers w result
        | none => Unread w) fun _ _ _ ↦ True := by
  refine told_catching (fun _ ↦ Unread) ?_ (fun e ↦ ?_) fun _ _ _ _ ↦ trivial
  · exact Safe.bind (told_gitlab_of_unread _) fun _ ↦ Safe.ret fun _ _ h ↦ h
  · refine (told_conflict mrIid e.text).mono (fun _ _ h ↦ h.seen) (fun out _ _ h ↦ ?_)
      fun _ _ _ h ↦ h
    obtain ⟨rfl, hunseen⟩ := h
    exact answers_of_unseen hunseen _

theorem told_processRebase (mrIid : ℕ) :
    (processRebase settings mrIid).Told (shutdownObserver settings .processRebase)
      (fun _ ↦ Unread) (fun result _ w ↦ Answers w result) fun _ _ _ ↦ True := by
  have hread : (capturePreRebaseState mrIid).Told (shutdownObserver settings .processRebase)
      (fun _ ↦ Unread) (fun _ _ ↦ Unread) fun _ _ _ ↦ True := by
    refine Safe.bind (told_raising (told_gitlab_of_unread _)) fun mr ↦ ?_
    exact Safe.bind (told_raising (told_gitlab_of_unread _)) fun _ ↦ Safe.ret fun _ _ h ↦ h
  refine Safe.bind hread fun out ↦ ?_
  obtain ⟨mr, pipeline⟩ := out
  simp only
  split_ifs
  · exact (told_startTestingWithoutRebase mrIid mr pipeline).mono
      (fun _ _ h ↦ Unread.fresh h) (fun _ _ _ h ↦ h) fun _ _ _ h ↦ h
  · exact told_waitForRebase mrIid _
  · refine Safe.bind (told_initiateRebase mrIid) fun result ↦ ?_
    cases result with
    | some result => exact Safe.ret fun _ _ h ↦ h
    | none => exact told_waitForRebase mrIid _

end Rebase

/-! ## The pipeline -/

section Pipeline

open PipelineHandler RebaseCoordinator RebaseDuringTestingHandler
open ShutdownWatch (Calm Fresh steady_calm steady_fresh)

variable {settings : Settings}

/-- GitLab rebases during testing, and the event was not seen. -/
structure Awaiting (w : ShutdownWatch) : Prop extends w.Fresh none where
  waiting : w.waiting = true

theorem told_rebaseMr (mrIid : ℕ) :
    (Prog.gitlab (.rebaseMr mrIid)).Told (shutdownObserver settings .waitForPipeline)
      (fun _ ↦ Fresh none) (fun _ _ ↦ Awaiting) fun _ _ ↦ Fresh none := by
  refine Told.call fun s w answer hw _ _ ↦ ⟨fun _ ↦ ?_, ?_⟩
  · cases answer <;> exact hw.ended
  · cases answer with
    | error e => exact ⟨hw.seen, hw.ended, hw.started⟩
    | ok _ => exact ⟨⟨hw.seen, hw.ended, hw.started⟩, rfl⟩

/-- Without a result of the rebase, GitLab goes on with it. -/
theorem told_checkRebaseDone (mrIid : ℕ) (conflictPrefix : String) :
    (checkRebaseDone mrIid conflictPrefix).Told (shutdownObserver settings .waitForPipeline)
      (fun _ ↦ Awaiting) (fun out _ w ↦ if out.isSome then w.Fresh none else Awaiting w)
      fun _ _ ↦ Fresh none := by
  have hstatus : (Prog.gitlab (.checkRebaseStatus mrIid)).Told
      (shutdownObserver settings .waitForPipeline) (fun _ ↦ Awaiting)
      (fun out _ w ↦ w.Fresh none ∧ w.waiting = (out.1 || out.2.1)) fun _ _ ↦ Fresh none := by
    refine Told.call fun s w answer hw _ _ ↦ ?_
    rcases answer with e | ⟨running, conflicts, message⟩
    · have hended : (w.ended || false) = false := (Bool.or_false _).trans hw.ended
      exact ⟨fun _ ↦ hended, hw.seen, hended, hw.started⟩
    · refine ⟨fun _ ↦ hw.ended, ⟨hw.seen, hw.ended, hw.started⟩, ?_⟩
      exact (congrArg (· && (running || conflicts)) hw.waiting).trans (Bool.true_and _)
  refine Safe.bind hstatus fun status ↦ ?_
  obtain ⟨running, conflicts, message⟩ := status
  cases conflicts with
  | true => exact Safe.throw fun _ _ h ↦ h.1
  | false =>
      cases running with
      | true => exact Safe.ret fun _ _ h ↦ ⟨h.1, h.2⟩
      | false => exact Safe.ret fun _ _ h ↦ h.1

/-- The steps of the wait for a rebase during testing, in which the event is not seen. -/
def awaitSteps : WaitSteps Unit ShutdownWatch where
  between _ _ := Awaiting
  asked _ _ := Awaiting
  ready _ _ := Awaiting
  polled _ _ := Awaiting
  resting _ _ := Awaiting
  done _ _ := Fresh none
  lapsed _ := Fresh none
  stopped _ _ := False

theorem told_now_of_awaiting :
    Prog.now.Told (shutdownObserver settings .waitForPipeline) (fun _ ↦ Awaiting)
      (fun _ _ ↦ Awaiting) fun _ _ ↦ Fresh none := by
  refine Told.call fun s w answer hw _ _ ↦ ?_
  have hstarted (w : ShutdownWatch) : w.Started none := fun _ ht ↦ by cases ht
  cases answer with
  | error e =>
      have hended : (w.ended || false) = false := (Bool.or_false _).trans hw.ended
      exact ⟨fun _ ↦ hended, hw.seen, hended, hw.started⟩
  | ok t => exact ⟨fun _ ↦ hw.ended, ⟨hw.seen, hw.ended, hstarted _⟩, hw.waiting⟩

/-- The event is not seen while GitLab rebases. -/
theorem told_shutdownRequested_of_awaiting :
    (Prog.await .shutdownRequested).Told (shutdownObserver settings .waitForPipeline)
      (fun _ ↦ Awaiting) (fun stopping _ w ↦ stopping = false ∧ Awaiting w)
      fun _ _ ↦ Fresh none := by
  refine Told.call fun s w answer hw _ hallowed ↦ ?_
  cases answer with
  | error e =>
      have hended : (w.ended || false) = false := (Bool.or_false _).trans hw.ended
      exact ⟨fun _ ↦ hended, hw.seen, hended, hw.started⟩
  | ok stopping =>
      have hgoes : stopping = false := of_decide_eq_true hallowed.2 hw.waiting
      subst hgoes
      exact ⟨fun _ ↦ hw.ended, rfl, ⟨(Bool.or_false _).trans hw.seen, hw.ended, hw.started⟩,
        hw.waiting⟩

theorem told_sleep_of_awaiting (pause : Pause) :
    (Prog.await (.sleep pause)).Told (shutdownObserver settings .waitForPipeline)
      (fun _ ↦ Awaiting) (fun slept _ w ↦ slept = true ∧ Awaiting w) fun _ _ ↦ Fresh none := by
  refine Told.call fun s w answer hw _ hallowed ↦ ?_
  cases answer with
  | error e =>
      have hended : (w.ended || false) = false := (Bool.or_false _).trans hw.ended
      exact ⟨fun _ ↦ hended, hw.seen, hended, hw.started⟩
  | ok slept =>
      have hslept : slept = true := of_decide_eq_true hallowed.2 hw.waiting
      subst hslept
      exact ⟨fun _ ↦ hw.ended, rfl, ⟨(Bool.or_false _).trans hw.seen, hw.ended, hw.started⟩,
        hw.waiting⟩

theorem told_pollRebaseDone {timeoutSeconds interval : ℕ} {pollFn : Prog (Option Unit)}
    (hpoll : pollFn.Told (shutdownObserver settings .waitForPipeline) (fun _ ↦ Awaiting)
      (fun out _ w ↦ if out.isSome then w.Fresh none else Awaiting w) fun _ _ ↦ Fresh none) :
    (pollUntilDone settings timeoutSeconds interval pollFn).Told
      (shutdownObserver settings .waitForPipeline) (fun _ ↦ Awaiting) awaitSteps.ofOutcome
      fun _ _ ↦ Fresh none := by
  refine told_pollUntilDone awaitSteps told_now_of_awaiting (fun _ ↦ ?_) (fun start ↦ ?_)
    (fun _ ↦ ?_) (fun start ↦ ?_) fun _ ↦ ?_
  · refine told_shutdownRequested_of_awaiting.mono (fun _ _ h ↦ h)
      (fun stopping _ _ h ↦ ?_) fun _ _ _ h ↦ h
    obtain ⟨rfl, hawaiting⟩ := h
    exact hawaiting
  · refine told_now_of_awaiting.mono (fun _ _ h ↦ h) (fun now _ _ h ↦ ?_) fun _ _ _ h ↦ h
    split_ifs
    · exact h.toFresh
    · exact h
  · refine hpoll.mono (fun _ _ h ↦ h) (fun out _ _ h ↦ ?_) fun _ _ _ h ↦ h
    cases out <;> exact h
  · refine told_now_of_awaiting.mono (fun _ _ h ↦ h) (fun now _ _ h ↦ ?_) fun _ _ _ h ↦ h
    split_ifs
    · exact h.toFresh
    · exact h
  · refine (told_sleep_of_awaiting _).mono (fun _ _ h ↦ h)
      (fun slept _ _ h ↦ ?_) fun _ _ _ h ↦ h
    obtain ⟨rfl, hawaiting⟩ := h
    exact hawaiting

theorem told_waitForRebaseCompletion (mrIid timeoutSeconds interval : ℕ)
    (conflictPrefix timeoutMessage shutdownMessage : String) :
    (waitForRebaseCompletion settings mrIid timeoutSeconds interval conflictPrefix timeoutMessage
      shutdownMessage).Told (shutdownObserver settings .waitForPipeline) (fun _ ↦ Awaiting)
      (fun _ _ ↦ Fresh none) fun _ _ ↦ Fresh none := by
  refine Safe.bind (told_pollRebaseDone (told_checkRebaseDone mrIid conflictPrefix))
    fun outcome ↦ ?_
  cases outcome with
  | completed => exact Safe.ret fun _ _ h ↦ h
  | shutdownRequested => exact Safe.throw fun _ _ h ↦ absurd h id
  | timedOut => exact Safe.throw fun _ _ h ↦ h

theorem still_checkNewPipeline (mrIid : ℕ) (oldSha : String) (oldPipelineId : Option ℕ) :
    (checkNewPipeline mrIid oldSha oldPipelineId).Keeps (fun op ↦ op.still = true)
      fun _ ↦ True := by
  refine Keeps.bind (Keeps.call rfl) fun mr ↦ ?_
  split_ifs
  · exact Keeps.bind (Keeps.call rfl) fun _ ↦ Keeps.ret _
  · exact Keeps.ret _

/-- A wait that was stopped has no pipeline to show. -/
theorem told_waitForNewPipeline (mrIid : ℕ) (oldSha : String) (oldPipelineId : Option ℕ) :
    (waitForNewPipeline settings mrIid oldSha oldPipelineId).Told
      (shutdownObserver settings .waitForPipeline) (fun _ ↦ Fresh none)
      (fun out _ w ↦ w.Calm none ∧ (out.isSome = true → w.Fresh none)) fun _ _ ↦ Fresh none := by
  have hfresh := steady_fresh none
  have hcheck : (checkNewPipeline mrIid oldSha oldPipelineId).Told
      (shutdownObserver settings .waitForPipeline) (fun _ ↦ Fresh none) (fun _ _ ↦ Fresh none)
      fun _ _ ↦ Fresh none :=
    told_of_still hfresh (still_checkNewPipeline mrIid oldSha oldPipelineId)
  refine Safe.bind (told_wait hcheck) fun outcome ↦ ?_
  cases outcome with
  | completed pipeline => exact Safe.ret fun _ _ h ↦ ⟨Fresh.calm h, fun _ ↦ h⟩
  | shutdownRequested => exact Safe.ret fun _ _ h ↦ ⟨h, fun hsome ↦ by cases hsome⟩
  | timedOut =>
      refine Safe.bind (told_gitlab hfresh _) fun mr ↦ Safe.bind (told_gitlab hfresh _) fun p ↦ ?_
      exact Safe.ret fun _ _ h ↦ ⟨h.calm, fun _ ↦ h⟩

theorem still_cancelCurrentPipeline (ctx : RebaseDuringTestingContext) :
    (cancelCurrentPipeline ctx).Keeps (fun op ↦ op.still = true) fun _ ↦ True := by
  unfold cancelCurrentPipeline
  split
  · exact keeps_catching (Keeps.bind (Keeps.call rfl) fun _ ↦ Keeps.ret ()) fun _ ↦ Keeps.ret ()
  · exact Keeps.ret ()

theorem told_rebaseAgain (mrIid : ℕ) (ctx : RebaseDuringTestingContext) :
    (rebaseAgain settings mrIid ctx).Told (shutdownObserver settings .waitForPipeline)
      (fun _ ↦ Fresh none) (fun out _ w ↦ w.Calm none ∧ (out.2.isSome = true → w.Fresh none))
      fun _ _ ↦ Fresh none := by
  have hfresh := steady_fresh none
  refine Safe.bind (told_of_still hfresh (still_cancelCurrentPipeline ctx)) fun _ ↦ ?_
  refine Safe.bind (told_gitlab hfresh _) fun mr ↦ Safe.bind (told_rebaseMr mrIid) fun _ ↦ ?_
  refine Safe.bind (told_waitForRebaseCompletion mrIid _ _ _ _ _) fun _ ↦ ?_
  exact Safe.bind (told_waitForNewPipeline mrIid _ _) fun _ ↦ Safe.ret fun _ _ h ↦ h

theorem told_handleRebaseIfNeeded (mrIid : ℕ) (ctx : RebaseDuringTestingContext) :
    (handleRebaseIfNeeded settings mrIid ctx).Told (shutdownObserver settings .waitForPipeline)
      (fun _ ↦ Fresh none) (fun out _ w ↦ w.Calm none ∧ (out.2.isSome = true → w.Fresh none))
      fun _ _ ↦ Fresh none := by
  have hneeds : (checkNeedsRebase mrIid).Keeps (fun op ↦ op.still = true) fun _ ↦ True := by
    refine Keeps.bind (Keeps.call rfl) fun mr ↦ ?_
    split_ifs <;> exact Keeps.ret _
  refine Safe.bind (told_of_still (steady_fresh none) hneeds) fun readiness ↦ ?_
  cases readiness with
  | ready => exact Safe.ret fun _ _ h ↦ ⟨h.calm, fun _ ↦ h⟩
  | hasConflicts => exact Safe.throw fun _ _ h ↦ h
  | needsRebase =>
      simp only
      split_ifs
      · exact Safe.throw fun _ _ h ↦ h
      · exact told_rebaseAgain mrIid ctx

/-- What holds after a rebase check: a result is an answer, and without one the lifecycle
goes on. -/
def Checked (w : ShutdownWatch) : RebaseResult → Prop
  | .result result => Answers w result
  | _ => w.Calm none

theorem told_attemptRebase (mrIid : ℕ) (state : PipelineWaitState) (pipeline : Pipeline) :
    (attemptRebase settings mrIid state pipeline).Told (shutdownObserver settings .waitForPipeline)
      (fun _ ↦ Fresh none) (fun out _ w ↦ Checked w out) fun _ _ ↦ Fresh none := by
  refine Safe.bind (told_handleRebaseIfNeeded mrIid state.rebaseCtx) fun out ↦ ?_
  obtain ⟨newCtx, newPipeline⟩ := out
  cases newPipeline with
  | some newPipeline =>
      have hnotify : (MRStateMachine.notifyRebaseDuringTesting settings (some pipeline.id)
          newPipeline.id newCtx.rebaseCount newCtx.maxAttempts newPipeline.sha).Keeps
          (fun op ↦ op.still = true) fun _ ↦ True :=
        MRStateMachine.keeps_notifyRebaseDuringTesting _ _ _ _ _ (fun _ ↦ Op.still_of_tends)
          fun _ _ ↦ rfl
      exact Safe.bind ((told_of_still (steady_fresh none) hnotify).mono (fun _ _ h ↦ h.2 rfl)
        (fun _ _ _ h ↦ h) fun _ _ _ h ↦ h) fun _ ↦ Safe.ret fun _ _ h ↦ h.calm
  | none =>
      simp only
      split_ifs <;> exact Safe.ret fun _ _ h ↦ h.1

/-- What a rebase raises is taken for its failure, where the event was not seen. -/
theorem told_checkAndHandleRebaseDuringTesting (mrIid : ℕ) (state : PipelineWaitState)
    (pipeline : Pipeline) :
    (checkAndHandleRebaseDuringTesting settings mrIid state pipeline).Told
      (shutdownObserver settings .waitForPipeline) (fun _ ↦ Fresh none)
      (fun out _ w ↦ Checked w out) fun _ _ _ ↦ True := by
  refine Safe.handle (told_attemptRebase mrIid state pipeline) fun e ↦ ?_
  have hpermits (op : Op) (hop : op.settles = true) : op.follows = true ∨ op.still = true :=
    Or.inl (Op.follows_of_settles hop)
  have hfail : (failRebase settings mrIid state e).Asks (fun _ _ ↦ True)
      (fun _ op ↦ op.follows = true ∨ op.still = true) (fun _ ↦ True)
      (fun out _ ↦ ∃ result, out = .result result) fun _ _ ↦ True :=
    asks_failRebase hpermits (Or.inr rfl) state e
  refine (told_unseen_of_asks hfail).mono (fun _ _ h ↦ h.seen) ?_ fun _ _ _ h ↦ h
  rintro out s w ⟨⟨result, rfl⟩, hunseen⟩
  exact answers_of_unseen hunseen result

theorem told_maybeRebaseDuringTesting (mrIid : ℕ) (state : PipelineWaitState)
    (pipeline : Pipeline) :
    (maybeRebaseDuringTesting settings mrIid state pipeline).Told
      (shutdownObserver settings .waitForPipeline) (fun _ ↦ Fresh none)
      (fun outcome _ ↦ Noted none outcome.result) fun _ _ _ ↦ True := by
  refine Safe.bind (told_raising (told_now (steady_fresh none))) fun now ↦ ?_
  split_ifs
  · exact Safe.ret fun _ _ h ↦ h.calm
  · refine Safe.bind (told_checkAndHandleRebaseDuringTesting mrIid state pipeline) fun out ↦ ?_
    cases out with
    | unchanged => exact Safe.ret fun _ _ h ↦ h
    | context ctx => exact Safe.ret fun _ _ h ↦ h
    | result result => exact Safe.ret fun _ _ h ↦ h

/-! ### The loop -/

theorem still_writeTesting (mrIid : ℕ) (extra : QueueManager.Extra) :
    (writeTesting settings mrIid extra).Keeps (fun op ↦ op.still = true) fun _ ↦ True :=
  keeps_updateMrState (K := fun _ ↦ True) rfl

theorem told_applyRebaseOutcome (mrIid : ℕ) (state : PipelineWaitState)
    (outcome : RebaseCheckOutcome) :
    (applyRebaseOutcome settings mrIid state outcome).Told
      (shutdownObserver settings .waitForPipeline) (fun _ ↦ Noted none outcome.result)
      (fun out _ ↦ Noted none out.2) fun _ _ _ ↦ True := by
  obtain ⟨context, result, lastCheck, shouldReset⟩ := outcome
  cases result with
  | some result => exact Safe.ret fun _ _ h ↦ h
  | none =>
      cases context with
      | none => exact Safe.ret fun _ _ h ↦ h
      | some ctx =>
          have hcalm := steady_calm none
          unfold applyRebaseOutcome
          simp only
          split_ifs
          · refine Safe.bind (told_raising (told_of_still hcalm (still_writeTesting mrIid _)))
              fun _ ↦ Safe.bind (told_raising (told_now hcalm)) fun _ ↦ Safe.ret fun _ _ h ↦ h
          · exact Safe.ret fun _ _ h ↦ h

theorem still_resetPipelineWaitState (state : PipelineWaitState) :
    (resetPipelineWaitState state).Keeps (fun op ↦ op.still = true) fun _ ↦ True :=
  Keeps.bind (Keeps.call rfl) fun _ ↦ Keeps.ret _

theorem still_tryRecoverFromStaleSkip (mrIid : ℕ) (pipeline : Pipeline)
    (state : PipelineWaitState) :
    (tryRecoverFromStaleSkip settings mrIid pipeline state).Keeps (fun op ↦ op.still = true)
      fun _ ↦ True := by
  refine Keeps.bind (Keeps.call rfl) fun item ↦ ?_
  split
  · exact Keeps.ret _
  · refine Keeps.bind (Keeps.call rfl) fun tracked ↦ ?_
    split_ifs
    · exact Keeps.bind (still_writeTesting _ _) fun _ ↦ still_resetPipelineWaitState _
    · exact Keeps.ret _

/-- A pipeline without a result is only waited for. -/
theorem handlePipelineStatus_of_goesOn (mrIid : ℕ) {pipeline : Pipeline}
    (retriedJobs : List (String × ℕ)) (h : pipeline.status.goesOn = true) :
    handlePipelineStatus settings mrIid pipeline retriedJobs = pure .wait := by
  obtain ⟨⟨⟨hsuccess, hcanceled⟩, hfailed⟩, hactionable⟩ :
      ((pipeline.status ≠ .success ∧ pipeline.status ≠ .canceled) ∧ pipeline.status ≠ .failed) ∧
        nonActionable pipeline.status = none := by
    simpa [PipelineStatus.goesOn] using h
  unfold handlePipelineStatus
  split
  · exact absurd ‹_› hsuccess
  · exact absurd ‹_› hcanceled
  · exact absurd ‹_› hfailed
  · rw [hactionable]

theorem told_followPipeline (mrIid : ℕ) {pipeline : Pipeline} (state : PipelineWaitState)
    (h : pipeline.status.goesOn = true) :
    (followPipeline settings mrIid pipeline state).Told (shutdownObserver settings .waitForPipeline)
      (fun _ ↦ Calm none) (fun out _ ↦ Noted none out.2) fun _ _ _ ↦ True := by
  unfold followPipeline
  simp only [handlePipelineStatus_of_goesOn mrIid _ h]
  split_ifs
  · exact Safe.ret fun _ _ h ↦ h
  · have hwait : (pure .wait : Prog StatusResult).Told (shutdownObserver settings .waitForPipeline)
        (fun _ ↦ Calm none) (fun verdict _ w ↦ verdict = .wait ∧ w.Calm none) fun _ _ _ ↦ True :=
      Safe.ret fun _ _ h ↦ ⟨rfl, h⟩
    refine Safe.bind hwait fun verdict ↦ ?_
    cases verdict with
    | wait => exact Safe.ret fun _ _ h ↦ h.2
    | result => exact Safe.ret fun _ _ h ↦ by cases h.1
    | retry => exact Safe.ret fun _ _ h ↦ h.2

theorem told_processPipeline (mrIid : ℕ) {pipeline : Pipeline} (state : PipelineWaitState)
    (h : pipeline.status.goesOn = true) :
    (processPipeline settings mrIid pipeline state).Told
      (shutdownObserver settings .waitForPipeline) (fun _ ↦ Fresh none)
      (fun out _ ↦ Noted none out.2) fun _ _ _ ↦ True := by
  have hcalm := steady_calm none
  refine Safe.bind (told_maybeRebaseDuringTesting mrIid _ pipeline) fun outcome ↦ ?_
  refine Safe.bind (told_applyRebaseOutcome mrIid _ outcome) fun out ↦ ?_
  obtain ⟨state, ended⟩ := out
  cases ended with
  | some result => exact Safe.ret fun _ _ h ↦ h
  | none =>
      have hstale : (checkStalePipeline settings mrIid pipeline).Keeps (fun op ↦ op.still = true)
          fun _ ↦ True := Keeps.bind (Keeps.call rfl) fun _ ↦ Keeps.ret _
      refine Safe.bind (told_raising (told_of_still hcalm hstale)) fun verdict ↦ ?_
      cases verdict with
      | skip =>
          exact Safe.bind (told_raising (told_of_still hcalm
            (still_tryRecoverFromStaleSkip mrIid pipeline state))) fun _ ↦ Safe.ret fun _ _ h ↦ h
      | switched =>
          refine Safe.bind (told_raising (told_of_still hcalm (still_writeTesting mrIid _)))
            fun _ ↦ ?_
          have hreset := still_resetPipelineWaitState state
          exact Safe.bind (told_raising (told_of_still hcalm hreset)) fun _ ↦
            Safe.ret fun _ _ h ↦ h
      | ok => exact told_followPipeline mrIid state h

theorem told_getLatestMrPipeline (mrIid : ℕ) :
    (Prog.gitlab (.getLatestMrPipeline mrIid)).Told (shutdownObserver settings .waitForPipeline)
      (fun _ ↦ Fresh none)
      (fun pipeline _ w ↦ (∀ p ∈ (pipeline : Option Pipeline), p.status.goesOn = true) ∧
        w.Fresh none) fun _ _ _ ↦ True := by
  refine Told.call fun s w answer hw _ hallowed ↦ ?_
  have hended : (w.ended || false) = false := (Bool.or_false _).trans hw.ended
  cases answer with
  | error e => exact ⟨fun _ ↦ hended, trivial⟩
  | ok pipeline => exact ⟨fun _ ↦ hended, of_decide_eq_true hallowed.1, hw.seen, hended, hw.started⟩

/-- The loop goes on only where the event was not seen. -/
theorem told_checkPipelineTerminationConditions (mrIid : ℕ) (state : PipelineWaitState) :
    (checkPipelineTerminationConditions settings mrIid state).Told
      (shutdownObserver settings .waitForPipeline) (fun _ ↦ Calm none)
      (fun out _ w ↦ match out.2 with
        | some result => Answers w result
        | none => w.Fresh none) fun _ _ _ ↦ True := by
  have hfresh := steady_fresh none
  refine Safe.bind (told_raising (told_shutdownRequested (steady_calm none) fun _ h ↦ h))
    fun stopping ↦ ?_
  cases stopping with
  | true => exact Safe.ret fun _ _ _ _ ↦ rfl
  | false =>
      refine Safe.bind (told_raising (told_now hfresh)) fun now ↦ ?_
      cases hexpired : expired state.startTime now settings.pipelineTimeoutSeconds with
      | true =>
          have hchance : (hasLastChance mrIid state).Keeps (fun op ↦ op.still = true)
              fun _ ↦ True := by
            unfold hasLastChance
            split_ifs
            · exact Keeps.ret _
            · exact Keeps.bind (Keeps.call rfl) fun _ ↦ Keeps.ret _
          refine Safe.bind (told_raising (told_of_still hfresh hchance)) fun lastChance ↦ ?_
          cases lastChance with
          | true => exact Safe.ret fun _ _ h ↦ h
          | false =>
              have htimeout := MRStateMachine.keeps_triggerTimeout (@enters_settles settings)
                (max 1 (settings.pipelineTimeoutSeconds / 3600))
              exact Safe.bind ((told_unseen_of_settles htimeout).mono (fun _ _ h ↦ h.seen)
                (fun _ _ _ h ↦ h) fun _ _ _ h ↦ h) fun _ ↦
                Safe.ret fun _ _ h ↦ answers_of_unseen h _
      | false =>
          have hverify : (verifyMrInQueue settings mrIid).Keeps (fun op ↦ op.still = true)
              fun _ ↦ True := keeps_verifyMrInQueue rfl rfl
          refine Safe.bind (told_raising (told_of_still hfresh hverify)) fun verdict ↦ ?_
          cases verdict with
          | none => exact Safe.ret fun _ _ h ↦ h
          | some reason =>
              have hremoved := MRStateMachine.keeps_triggerMarkRemoved (@enters_settles settings)
                reason
              exact Safe.bind ((told_unseen_of_settles hremoved).mono (fun _ _ h ↦ h.seen)
                (fun _ _ _ h ↦ h) fun _ _ _ h ↦ h) fun _ ↦
                Safe.ret fun _ _ h ↦ answers_of_unseen h _

theorem told_processPipelineIteration (mrIid : ℕ) (state : PipelineWaitState) :
    (processPipelineIteration settings mrIid state).Told
      (shutdownObserver settings .waitForPipeline) (fun _ ↦ Calm none)
      (fun out _ ↦ Noted none out.2) fun _ _ _ ↦ True := by
  refine Safe.bind (told_checkPipelineTerminationConditions mrIid state) fun out ↦ ?_
  obtain ⟨state, ended⟩ := out
  cases ended with
  | some result => exact Safe.ret fun _ _ h ↦ h
  | none =>
      refine Safe.bind (told_getLatestMrPipeline mrIid) fun pipeline ↦ ?_
      cases pipeline with
      | none => exact Safe.ret fun _ _ h ↦ h.2.calm
      | some pipeline =>
          exact fun s w h ↦ told_processPipeline mrIid state (h.1 pipeline rfl) s w h.2

theorem told_waitForPipeline (mrIid : ℕ) :
    (waitForPipeline settings mrIid).Told (shutdownObserver settings .waitForPipeline)
      (fun _ ↦ Calm none) (fun result _ w ↦ Answers w result) fun _ _ _ ↦ True := by
  have hcalm := steady_calm none
  have hinit : (initPipelineWaitState settings mrIid).Keeps (fun op ↦ op.still = true)
      fun _ ↦ True :=
    Keeps.bind (Keeps.call rfl) fun _ ↦ Keeps.bind (Keeps.call rfl) fun _ ↦
      Keeps.bind (Keeps.call rfl) fun _ ↦ Keeps.ret _
  refine Safe.bind (told_raising (told_of_still hcalm hinit)) fun state ↦ ?_
  refine Told.loop (fun _ _ ↦ Calm none) (fun state ↦ ?_) _ _
  refine Safe.bind (told_processPipelineIteration mrIid state) fun out ↦ ?_
  obtain ⟨state, ended⟩ := out
  cases ended with
  | some result => exact Safe.ret fun _ _ h ↦ h
  | none =>
      refine Safe.bind (told_raising (told_sleep hcalm (fun _ h ↦ h) _)) fun slept ↦ ?_
      cases slept with
      | true => exact Safe.ret fun _ _ h ↦ Fresh.calm h
      | false => exact Safe.ret fun _ _ h ↦ h

end Pipeline

end Shutdown

open Shutdown (Answers)

theorem told_waitingCall (settings : Settings) (mrIid : ℕ) (call : WaitingCall) :
    (call.program settings mrIid).Told (shutdownObserver settings call) (fun _ w ↦ w = {})
      (fun result _ w ↦ Answers w result) fun _ _ _ ↦ True := by
  cases call with
  | processRebase =>
      refine (Shutdown.told_processRebase mrIid).mono (fun _ _ h ↦ ?_) (fun _ _ _ h ↦ h)
        fun _ _ _ h ↦ h
      exact h ▸ ⟨rfl, rfl, rfl⟩
  | waitForPipeline =>
      refine (Shutdown.told_waitForPipeline mrIid).mono (fun _ _ h ↦ ?_) (fun _ _ _ h ↦ h)
        fun _ _ _ h ↦ h
      exact h ▸ ⟨rfl, fun _ ht ↦ by cases ht⟩

/-- Where GitLab has no result for what is waited for, and the shutdown event is not seen while
it rebases during testing, a call that saw the event has not ended the lifecycle, and if it
returns, it returns an error. -/
theorem shutdown_ends_no_lifecycle (settings : Settings) (call : WaitingCall) (mrIid : ℕ)
    (s : Local) (replies : List (Reply Op Op.Answer PyError))
    (hallows : (shutdownObserver settings call).Allows {}
      ((call.program settings mrIid s).converse replies).1)
    (hseen : ((shutdownObserver settings call).after {}
      ((call.program settings mrIid s).converse replies).1).seen = true) :
    ((shutdownObserver settings call).after {}
        ((call.program settings mrIid s).converse replies).1).ended = false ∧
      ∀ result s', ((call.program settings mrIid s).converse replies).2 = .done (.ok result) s' →
        result = .error := by
  have hsafe := Task.Safe.converse (O := shutdownObserver settings call) (m := {}) (fun _ ↦ rfl)
    (told_waitingCall settings mrIid call s {} rfl) replies hallows
  refine ⟨hsafe.1 hseen, fun result s' hdone ↦ ?_⟩
  have hanswers := hsafe.2
  rw [hdone] at hanswers
  exact hanswers hseen

/-! ## A shutdown while GitLab rebases during testing -/

/-- GitLab answers, without a result, and no timeout elapses. -/
def Settings.undecided (settings : Settings) : ProgExchange → Bool
  | ⟨.gitlab (.checkRebaseStatus _), .ok (running, conflicts, _)⟩ => running && !conflicts
  | ⟨.gitlab (.getMr ..), .ok mr⟩ => !(mr : MergeRequest).hasConflicts
  | ⟨.gitlab (.getLatestMrPipeline _), .ok pipeline⟩ =>
      (pipeline : Option Pipeline).all fun p ↦ p.status.goesOn
  | ⟨.gitlab _, .error _⟩ => false
  | ⟨.now, .ok t⟩ =>
      decide (0 ≤ t) && decide (t ≤ settings.rebaseTimeoutSeconds * 1000000) &&
        decide (t ≤ settings.pipelineTimeoutSeconds * 1000000)
  | _ => true

def shutdownSettings : Settings where
  gitlabProjectId := 1
  rounds := 2

def testedLocal : Local where
  machine := some { projectId := 1, mrIid := 7, targetBranch := "master", current := .testing }

/-- The branch is behind, and its pipeline runs. -/
def answersBehind (flag : Bool) (now : ℤ) : Choice where
  now
  flag
  gitlab
    | .getMr .. => { sampleMergeRequest with mergeStatus := "cannot_be_merged_recheck" }
    | .getLatestMrPipeline _ => some { id := 5, status := .running, sha := "a1", ref := "fix" }
    | call => answersFor sampleMergeRequest call

/-- A check requests a rebase, and the event is set before the first poll of it. -/
def stoppedReplies : List (Reply Op Op.Answer PyError) :=
  (List.replicate 3 (answersBehind false 0) ++ List.replicate 10 (answersBehind false 30000000) ++
    List.replicate 20 (answersBehind true 30000000)).map
      ({ db := sampleDatabase : World }.reply shutdownSettings.qm)

/-- The event is set while the pipeline of the rebased branch is waited for. -/
def stoppedAfterRebase : List (Reply Op Op.Answer PyError) :=
  (List.replicate 3 (answersBehind false 0) ++ List.replicate 14 (answersBehind false 30000000) ++
    [answersBehind true 30000000] ++ List.replicate 2 (answersBehind false 30000000) ++
      [answersBehind true 30000000]).map
        ({ db := sampleDatabase : World }.reply shutdownSettings.qm)

theorem shutdown_ends_no_lifecycle_stopped :
    ((shutdownObserver shutdownSettings .waitForPipeline).after {}
      ((WaitingCall.waitForPipeline.program shutdownSettings 7 testedLocal).converse
        stoppedAfterRebase).1).ended = false :=
  (shutdown_ends_no_lifecycle shutdownSettings .waitForPipeline 7 testedLocal stoppedAfterRebase
    (by decide +kernel) (by decide +kernel)).1

/-- The wait for a rebase during testing raises what ends the lifecycle. -/
theorem shutdown_ends_lifecycle :
    ¬ ∀ (settings : Settings) (call : WaitingCall) (mrIid : ℕ) (s : Local)
        (replies : List (Reply Op Op.Answer PyError)),
      (waitObserver settings call).Allows {} ((call.program settings mrIid s).converse replies).1 →
      (∀ e ∈ ((call.program settings mrIid s).converse replies).1, settings.undecided e = true) →
      ((waitObserver settings call).after {}
        ((call.program settings mrIid s).converse replies).1).seen = true →
      ((waitObserver settings call).after {}
        ((call.program settings mrIid s).converse replies).1).ended = false := by
  intro hclaim
  have hended := hclaim shutdownSettings .waitForPipeline 7 testedLocal stoppedReplies
    (by decide +kernel) (by decide +kernel) (by decide +kernel)
  exact absurd hended (by decide +kernel)

end MergeQueue
