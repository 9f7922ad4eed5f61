import MergeQueue.PipelineSteps
import MergeQueue.RequeueTransfer

/-!
# The head that testing starts on

A rebase hands a pipeline and a head over to testing.  The head is one that GitLab
reported, but not every read looks whether a rebase is in progress: the read after the
wait for the new pipeline has run out, the read after a rebase that did not move the head,
and the reads while a pipeline is started without a rebase take any answer.
-/

namespace MergeQueue

open Interleave (Observer Program Reply Task)
open Interleave.Program (Asks Keeps Leaves Safe Told)
open QueueCompletion (enters_settles)

/-! ## What is noted of one call -/

/-- What the call is about: it has read nothing yet, waits for a rebase, waits for the
pipeline of the new head since a time, or starts a pipeline for the head as it is. -/
inductive HeadPhase
  | fresh
  | rebasing
  | settling (since : Option ℤ)
  | current
  deriving DecidableEq, Repr

/-- Where the wait for the pipeline of a new head stands: it polls, it has just been asked
whether to stop, or its time has run out. -/
inductive WaitStage
  | polling
  | asked
  | lapsed
  deriving DecidableEq, Repr

/-- What is noted of one call of `process_rebase`.  `reads` are the reads without a rebase in
progress since the merge request was found up-to-date or the rebase finished, `moved` tells
that a read since then reported another head than `old`, and `wrong` that testing was started
on anything else than it should be. -/
structure HeadWatch where
  phase : HeadPhase := .fresh
  stage : WaitStage := .polling
  old : String := ""
  rebased : Bool := false
  moved : Bool := false
  reads : List MergeRequest := []
  pipelines : List Pipeline := []
  wrong : Bool := false

namespace HeadWatch

/-- A read of the merge request. -/
def read (w : HeadWatch) (mr : MergeRequest) : HeadWatch :=
  let reads := if mr.rebaseInProgress then w.reads else mr :: w.reads
  let moved := w.moved || (w.rebased && decide (mr.sha ≠ w.old))
  match w.phase with
  | .fresh =>
      if RebaseHandler.isUpToDate mr then { w with phase := .current, reads := [mr] }
      else { w with phase := .rebasing, old := mr.sha }
  | .rebasing => w
  | .settling since =>
      { w with
        phase := if w.stage = .asked then .current else .settling since
        reads
        moved }
  | .current => { w with reads, moved }

/-- A report on the rebase: it runs, it failed, or it has finished. -/
def status (w : HeadWatch) (running failed : Bool) : HeadWatch :=
  if running || failed then { w with phase := .rebasing, reads := [] }
  else { w with phase := .settling none, stage := .polling, rebased := true, reads := [] }

/-- The time, at the start of the wait for the new pipeline and during it. -/
def tick (wait : ℕ) (w : HeadWatch) (t : ℤ) : HeadWatch :=
  match w.phase with
  | .settling none => { w with phase := .settling (some t), stage := .polling }
  | .settling (some since) =>
      { w with stage := if expired since t wait then .lapsed else .polling }
  | _ => w

/-- The pipeline and the head may be tested: the pipeline was reported with this head, the
head was read without a rebase in progress, and it is not the old one after the new one
was seen. -/
def justifies (w : HeadWatch) (pipelineId : ℕ) (sha : String) : Bool :=
  (w.pipelines.any fun p ↦ p.id = pipelineId && p.sha = sha) &&
    (w.reads.any fun mr ↦ mr.sha = sha) && !(w.moved && decide (sha = w.old))

/-- The write with which testing starts. -/
def start (w : HeadWatch) (extra : QueueManager.Extra) : HeadWatch :=
  match extra.pipelineId, extra.expectedSha with
  | some (some pipelineId), some (some sha) =>
      { w with wrong := w.wrong || !w.justifies pipelineId sha }
  | _, _ => w

def observe (wait : ℕ) (w : HeadWatch) : ProgExchange → HeadWatch
  | ⟨.gitlab (.getMr _ _), .ok mr⟩ => w.read mr
  | ⟨.gitlab (.checkRebaseStatus _), .ok (running, failed, _)⟩ => w.status running failed
  | ⟨.gitlab (.getLatestMrPipeline _), .ok pipeline⟩ =>
      { w with pipelines := pipeline.toList ++ w.pipelines }
  | ⟨.gitlab (.createPipeline _), .ok pipeline⟩ | ⟨.gitlab (.retryPipeline _), .ok pipeline⟩ =>
      { w with pipelines := pipeline :: w.pipelines }
  | ⟨.now, .ok t⟩ => w.tick wait t
  | ⟨.shutdownRequested, _⟩ => { w with stage := .asked }
  | ⟨.db (.updateMrState _ _ .testing extra), _⟩ => w.start extra
  | _ => w

/-- The next read of the merge request is one that takes any answer. -/
def unguarded (w : HeadWatch) : Bool :=
  match w.phase with
  | .fresh | .rebasing => false
  | .settling _ => decide (w.stage ≠ .polling)
  | .current => true

/-- The next read starts a pipeline for the head as it is. -/
def reusing (w : HeadWatch) : Bool :=
  match w.phase with
  | .fresh | .rebasing => false
  | .settling _ => decide (w.stage = .asked)
  | .current => true

/-- A read that takes any answer reports no rebase in progress, and a read for the head as it
is does not report the old head after a read has reported another one. -/
def allowed (w : HeadWatch) : ProgExchange → Prop
  | ⟨.gitlab (.getMr _ _), .ok mr⟩ =>
      (w.unguarded = true → mr.rebaseInProgress = false) ∧
        (w.reusing = true → w.moved = true → mr.sha ≠ w.old)
  | _ => True

instance decidableAllowed (w : HeadWatch) (e : ProgExchange) : Decidable (w.allowed e) := by
  unfold allowed
  split <;> infer_instance

end HeadWatch

def headObserver (settings : Settings) : Observer Op Op.Answer PyError HeadWatch where
  observe := HeadWatch.observe settings.postRebasePipelineWaitSeconds
  allowed := HeadWatch.allowed
  keeps w := w.wrong = false

instance (settings : Settings) (w : HeadWatch) (e : ProgExchange) :
    Decidable ((headObserver settings).allowed w e) :=
  HeadWatch.decidableAllowed w e

/-! ## What the operations do to the record -/

namespace HeadWatch

variable (wait : ℕ) {w : HeadWatch}

/-- The two records agree on what justifies a start. -/
structure Same (w w' : HeadWatch) : Prop where
  old : w'.old = w.old
  moved : w'.moved = w.moved
  reads : w'.reads = w.reads
  pipelines : w'.pipelines = w.pipelines
  wrong : w'.wrong = w.wrong

theorem Same.refl (w : HeadWatch) : Same w w := ⟨rfl, rfl, rfl, rfl, rfl⟩

theorem same_tick (t : ℤ) : Same w (w.tick wait t) := by
  unfold tick
  split <;> exact ⟨rfl, rfl, rfl, rfl, rfl⟩

/-- The pipeline may be handed over to testing. -/
structure Ready (w : HeadWatch) (p : Pipeline) : Prop where
  pipelines : p ∈ w.pipelines
  reads : ∃ mr ∈ w.reads, mr.sha = p.sha
  moved : w.moved = true → p.sha ≠ w.old

theorem Ready.of_same {w' : HeadWatch} {p : Pipeline} (h : w.Ready p) (hsame : Same w w') :
    w'.Ready p where
  pipelines := hsame.pipelines ▸ h.pipelines
  reads := hsame.reads ▸ h.reads
  moved := by
    rw [hsame.moved, hsame.old]
    exact h.moved

theorem Ready.justifies {p : Pipeline} (h : w.Ready p) : w.justifies p.id p.sha = true := by
  obtain ⟨mr, hmr, hsha⟩ := h.reads
  have hpipelines : (w.pipelines.any fun p' ↦ p'.id = p.id && p'.sha = p.sha) = true :=
    List.any_eq_true.mpr ⟨p, h.pipelines, by simp⟩
  have hreads : (w.reads.any fun mr ↦ mr.sha = p.sha) = true :=
    List.any_eq_true.mpr ⟨mr, hmr, by simpa using hsha⟩
  have hmoved : (w.moved && decide (p.sha = w.old)) = false := by
    cases hm : w.moved with
    | false => rfl
    | true => simpa using h.moved hm
  rw [HeadWatch.justifies, hpipelines, hreads, hmoved]
  rfl

/-- What belongs to a transition other than to testing leaves the record alone. -/
theorem same_observe_of_settles {op : Op} (hop : op.settles = true)
    (answer : Except PyError op.Answer) : Same w (observe wait w ⟨op, answer⟩) := by
  cases op with
  | gitlab call => cases call <;> first | exact Same.refl w | cases hop
  | db q =>
      cases q with
      | updateMrState projectId mrIid state extra =>
          cases state <;> first | exact Same.refl w | cases hop
      | _ => exact Same.refl w
  | now =>
      cases answer with
      | error e => exact Same.refl w
      | ok t => exact same_tick wait t
  | shutdownRequested | sleep => cases hop
  | _ => exact Same.refl w

end HeadWatch

/-! ## Entering testing -/

namespace RebaseHandler

variable {settings : Settings}

/-- The operation enters testing with this pipeline and this head, or not at all. -/
def Enters (p : Pipeline) (op : Op) : Prop :=
  op.settles = true ∨ ∃ projectId mrIid, op = .db (.updateMrState projectId mrIid .testing
    { pipelineId := some (some p.id)
      pipelineStatus := some (some .running)
      expectedSha := some (some p.sha) })

theorem told_enterTesting {p : Pipeline} :
    (enterTesting settings p p.sha).Told (headObserver settings) (fun _ w ↦ w.Ready p)
      (fun _ _ _ ↦ True) fun _ _ _ ↦ True := by
  have henters : (enterTesting settings p p.sha).Keeps (Enters p) fun _ ↦ True := by
    refine Keeps.bind ((Leaves.mono (MRNotifier.tends_buildPipelineUrl _) fun op hop ↦
      Or.inl (Op.settles_of_tends hop)).keeps _) fun url ↦ ?_
    exact MRStateMachine.keeps_triggerRebaseComplete _ _ _
      (fun _ hop ↦ Or.inl (Op.settles_of_tends hop)) fun _ _ ↦ Or.inr ⟨_, _, rfl⟩
  have htold : (enterTesting settings p p.sha).Told (headObserver settings)
      (fun _ w ↦ True ∧ w.Ready p) (fun _ _ w ↦ True ∧ w.Ready p) fun _ _ w ↦ True ∧ w.Ready p := by
    refine Told.of_asks henters fun s op w answer hop hready hkeeps _ ↦ ?_
    rcases hop with hop | ⟨projectId, mrIid, rfl⟩
    · have hsame := HeadWatch.same_observe_of_settles settings.postRebasePipelineWaitSeconds
        (w := w) hop answer
      exact ⟨hsame.wrong.trans hkeeps, hready.of_same hsame⟩
    · have hwrong : (w.wrong || !w.justifies p.id p.sha) = w.wrong := by
        rw [hready.justifies]
        exact Bool.or_false _
      exact ⟨hwrong.trans hkeeps, hready.of_same ⟨rfl, rfl, rfl, rfl, hwrong⟩⟩
  exact htold.mono (fun _ _ h ↦ ⟨trivial, h⟩) (fun _ _ _ _ ↦ trivial) fun _ _ _ _ ↦ trivial

theorem told_of_settles {α : Type} {p : Prog α}
    (h : p.Keeps (fun op ↦ op.settles = true) fun _ ↦ True) :
    p.Told (headObserver settings) (fun _ _ ↦ True) (fun _ _ _ ↦ True) fun _ _ _ ↦ True := by
  have htold : p.Told (headObserver settings) (fun _ _ ↦ True ∧ True) (fun _ _ _ ↦ True ∧ True)
      fun _ _ _ ↦ True ∧ True := by
    refine Told.of_asks h fun s op w answer hop _ hkeeps _ ↦ ⟨?_, trivial⟩
    exact (HeadWatch.same_observe_of_settles _ hop answer).wrong.trans hkeeps
  exact htold.mono (fun _ _ _ ↦ ⟨trivial, trivial⟩) (fun _ _ _ _ ↦ trivial) fun _ _ _ _ ↦ trivial

/-! ## Starting a pipeline for the head as it is -/

/-- The head of `mr` may be tested as it is. -/
structure Current (mr : MergeRequest) (w : HeadWatch) : Prop where
  phase : w.phase = .current
  reads : mr ∈ w.reads
  moved : w.moved = true → mr.sha ≠ w.old

theorem Current.ready {mr : MergeRequest} {w : HeadWatch} {p : Pipeline} (h : Current mr w)
    (hp : p ∈ w.pipelines) (hsha : p.sha = mr.sha) : w.Ready p where
  pipelines := hp
  reads := ⟨mr, h.reads, hsha.symm⟩
  moved := by
    rw [hsha]
    exact h.moved

/-- What is known of the pipeline that a step has found. -/
def Found (w : HeadWatch) : Option (Pipeline × String) → Prop
  | some (p, sha) => w.Ready p ∧ sha = p.sha
  | none => w.phase = .current

/-- An operation that leaves the record as it is. -/
theorem told_same {op : Op} {inv : Local → HeadWatch → Prop}
    (hsame : ∀ w answer,
      HeadWatch.observe settings.postRebasePipelineWaitSeconds w ⟨op, answer⟩ = w) :
    (Prog.await op).Told (headObserver settings) inv (fun _ ↦ inv) fun _ ↦ inv := by
  refine Told.call fun s w answer hinv hkeeps _ ↦ ?_
  have hobserve : (headObserver settings).observe w ⟨op, answer⟩ = w := hsame w answer
  rw [hobserve]
  exact ⟨hkeeps, by cases answer <;> exact hinv⟩

theorem told_getLatestMrPipeline (mrIid : ℕ) {inv : HeadWatch → Prop}
    (hinv : ∀ w pipelines, inv w → inv { w with pipelines := pipelines ++ w.pipelines }) :
    (Prog.gitlab (.getLatestMrPipeline mrIid)).Told (headObserver settings) (fun _ ↦ inv)
      (fun pipeline _ w ↦ inv w ∧ ∀ p ∈ (pipeline : Option Pipeline), p ∈ w.pipelines)
      fun _ _ _ ↦ True := by
  refine Told.call fun s w answer hw hkeeps _ ↦ ?_
  cases answer with
  | error e => exact ⟨hkeeps, trivial⟩
  | ok pipeline =>
      refine ⟨hkeeps, hinv w _ hw, fun p hp ↦ List.mem_append_left _ ?_⟩
      exact Option.mem_toList.mpr hp

theorem current_pipelines {mr : MergeRequest} (w : HeadWatch) (pipelines : List Pipeline)
    (h : Current mr w) : Current mr { w with pipelines := pipelines ++ w.pipelines } :=
  ⟨h.phase, h.reads, h.moved⟩

/-- A pipeline that is started is reported. -/
theorem told_createPipeline {mr : MergeRequest} (ref : String) :
    (Prog.gitlab (.createPipeline ref)).Told (headObserver settings) (fun _ ↦ Current mr)
      (fun p _ w ↦ Current mr w ∧ (p : Pipeline) ∈ w.pipelines) fun _ _ ↦ Current mr := by
  refine Told.call fun s w answer hw hkeeps _ ↦ ?_
  cases answer with
  | error e => exact ⟨hkeeps, hw⟩
  | ok p => exact ⟨hkeeps, current_pipelines w [p] hw, List.mem_cons_self⟩

theorem told_retryPipeline {mr : MergeRequest} (pipelineId : ℕ) :
    (Prog.gitlab (.retryPipeline pipelineId)).Told (headObserver settings) (fun _ ↦ Current mr)
      (fun p _ w ↦ Current mr w ∧ (p : Pipeline) ∈ w.pipelines) fun _ _ ↦ Current mr := by
  refine Told.call fun s w answer hw hkeeps _ ↦ ?_
  cases answer with
  | error e => exact ⟨hkeeps, hw⟩
  | ok p => exact ⟨hkeeps, current_pipelines w [p] hw, List.mem_cons_self⟩

theorem told_tryCreatePipeline {mr : MergeRequest} (fallbackPipelineId : Option ℕ) :
    (tryCreatePipeline mr.sourceBranch mr.sha fallbackPipelineId).Told (headObserver settings)
      (fun _ ↦ Current mr)
      (fun result _ w ↦ Current mr w ∧ ∀ entry ∈ result, entry.1 ∈ w.pipelines ∧ entry.2 = mr.sha)
      fun _ _ _ ↦ True := by
  have hnone : (pure none : Prog (Option (Pipeline × String))).Told (headObserver settings)
      (fun _ ↦ Current mr)
      (fun result _ w ↦ Current mr w ∧ ∀ entry ∈ result, entry.1 ∈ w.pipelines ∧ entry.2 = mr.sha)
      fun _ _ _ ↦ True := Safe.ret fun _ _ h ↦ ⟨h, by simp⟩
  refine told_catching (fun _ ↦ Current mr) ?_ (fun e ↦ ?_) fun _ _ _ _ ↦ trivial
  · refine Safe.bind (told_createPipeline _) fun pipeline ↦ Safe.ret fun _ _ h ↦ ⟨h.1, ?_⟩
    rintro entry ⟨⟩
    exact ⟨h.2, rfl⟩
  · split_ifs
    · exact hnone
    · cases fallbackPipelineId with
      | none => exact Safe.throw fun _ _ _ ↦ trivial
      | some id =>
          refine told_catching (fun _ ↦ Current mr) ?_ (fun _ ↦ hnone) fun _ _ _ _ ↦ trivial
          refine Safe.bind (told_retryPipeline _) fun pipeline ↦ Safe.ret fun _ _ h ↦ ⟨h.1, ?_⟩
          rintro entry ⟨⟩
          exact ⟨h.2, rfl⟩

theorem told_resolveCurrentPipeline (mr : MergeRequest) (pipeline : Option Pipeline) :
    (resolveCurrentPipeline mr pipeline).Told (headObserver settings)
      (fun _ w ↦ Current mr w ∧ ∀ p ∈ pipeline, p ∈ w.pipelines) (fun result _ w ↦ Found w result)
      fun _ _ _ ↦ True := by
  unfold resolveCurrentPipeline
  simp only
  split
  · next p hp =>
      obtain ⟨hcurrent, -⟩ := Option.filter_eq_some_iff.mp hp
      obtain ⟨hpipeline, hsha⟩ := Option.filter_eq_some_iff.mp hcurrent
      have hsha : p.sha = mr.sha := of_decide_eq_true hsha
      exact Safe.ret fun _ w h ↦ ⟨h.1.ready (h.2 p hpipeline) hsha, hsha.symm⟩
  · refine Safe.bind ((told_tryCreatePipeline _).mono (fun _ _ h ↦ h.1) (fun _ _ _ h ↦ h)
      fun _ _ _ h ↦ h) fun result ↦ Safe.ret fun _ w h ↦ ?_
    cases hresult : result.filter fun entry ↦ entry.1.sha = mr.sha with
    | none => exact h.1.phase
    | some entry =>
        obtain ⟨hentry, hsha⟩ := Option.filter_eq_some_iff.mp hresult
        obtain ⟨hpipeline, hmr⟩ := h.2 entry hentry
        have hsha : entry.1.sha = mr.sha := of_decide_eq_true hsha
        exact ⟨h.1.ready hpipeline hsha, hmr.trans hsha.symm⟩

/-- A read for the head as it is. -/
theorem told_getMr_of_reusing (mrIid : ℕ) {pre : HeadWatch → Prop}
    (hpre : ∀ w, pre w →
      w.phase = .current ∨ ∃ since, w.phase = .settling since ∧ w.stage = .asked) :
    (Prog.gitlab (.getMr mrIid false)).Told (headObserver settings) (fun _ ↦ pre)
      (fun mr _ ↦ Current mr) fun _ _ _ ↦ True := by
  refine Told.call fun s w answer hw hkeeps hallowed ↦ ?_
  cases answer with
  | error e => exact ⟨hkeeps, trivial⟩
  | ok mr =>
      obtain ⟨hguard, hold⟩ := hallowed
      have hmoved (b : Bool) (h : w.moved = true → mr.sha ≠ w.old)
          (hb : b = (w.moved || (w.rebased && decide (mr.sha ≠ w.old)))) :
          b = true → mr.sha ≠ w.old := by
        rintro rfl
        rcases Bool.or_eq_true_iff.mp hb.symm with hm | hm
        · exact h hm
        · exact of_decide_eq_true (Bool.and_eq_true_iff.mp hm).2
      change (w.read mr).wrong = false ∧ Current mr (w.read mr)
      rcases hpre w hw with hphase | ⟨since, hphase, hstage⟩
      · have hrebase : mr.rebaseInProgress = false := hguard (by simp [HeadWatch.unguarded, hphase])
        have hnew := hold (by simp [HeadWatch.reusing, hphase])
        simp only [HeadWatch.read, hphase, hrebase]
        exact ⟨hkeeps, rfl, List.mem_cons_self, hmoved _ hnew rfl⟩
      · have hrebase : mr.rebaseInProgress = false :=
          hguard (by simp [HeadWatch.unguarded, hphase, hstage])
        have hnew := hold (by simp [HeadWatch.reusing, hphase, hstage])
        simp only [HeadWatch.read, hphase, hstage, hrebase, if_true]
        exact ⟨hkeeps, rfl, List.mem_cons_self, hmoved _ hnew rfl⟩

theorem told_checkReusePipeline (mrIid : ℕ) :
    (checkReusePipeline mrIid).Told (headObserver settings) (fun _ w ↦ w.phase = .current)
      (fun result _ w ↦ Found w result) fun _ _ _ ↦ True := by
  refine Safe.bind (told_getMr_of_reusing mrIid fun _ h ↦ Or.inl h) fun mr ↦ ?_
  exact Safe.bind (told_getLatestMrPipeline mrIid current_pipelines) fun pipeline ↦
    told_resolveCurrentPipeline mr pipeline

/-- The clock and the wait change nothing while a pipeline is started for the head as it is. -/
theorem told_idle_of_current {op : Op}
    (hop : op = .now ∨ op = .shutdownRequested ∨ ∃ pause, op = .sleep pause) :
    (Prog.await op).Told (headObserver settings) (fun _ w ↦ w.phase = .current)
      (fun _ _ w ↦ w.phase = .current) fun _ _ _ ↦ True := by
  refine Told.call fun s w answer hw hkeeps _ ↦ ?_
  have hobserved : (headObserver settings).keeps ((headObserver settings).observe w ⟨op, answer⟩) ∧
      ((headObserver settings).observe w ⟨op, answer⟩).phase = .current := by
    rcases hop with rfl | rfl | ⟨pause, rfl⟩
    · cases answer with
      | error e => exact ⟨hkeeps, hw⟩
      | ok t =>
          change (w.tick _ t).wrong = false ∧ (w.tick _ t).phase = .current
          simp only [HeadWatch.tick, hw]
          exact ⟨hkeeps, trivial⟩
    · exact ⟨hkeeps, hw⟩
    · exact ⟨hkeeps, hw⟩
  refine ⟨hobserved.1, ?_⟩
  cases answer with
  | error e => trivial
  | ok a => exact hobserved.2

/-- The wait for a pipeline on the head as it is. -/
def reuseSteps : WaitSteps (Pipeline × String) HeadWatch where
  between _ _ w := w.phase = .current
  asked _ _ w := w.phase = .current
  ready _ _ w := w.phase = .current
  polled _ _ w := w.phase = .current
  resting _ _ w := w.phase = .current
  done result _ w := Found w (some result)
  lapsed _ _ := True
  stopped _ _ := True

theorem told_pollReuse (mrIid : ℕ) :
    (pollUntilDone settings settings.postRebasePipelineWaitSeconds
      settings.pipelinePollIntervalSeconds (checkReusePipeline mrIid)).Told (headObserver settings)
      (fun _ w ↦ w.phase = .current) reuseSteps.ofOutcome fun _ _ _ ↦ True := by
  have hnow : Prog.now.Told (headObserver settings) (fun _ w ↦ w.phase = .current)
      (fun _ _ w ↦ w.phase = .current) fun _ _ _ ↦ True := told_idle_of_current (Or.inl rfl)
  refine told_pollUntilDone reuseSteps hnow (fun _ ↦ ?_) (fun _ ↦ ?_) (fun _ ↦ ?_) (fun _ ↦ ?_)
    fun _ ↦ ?_
  · refine (told_idle_of_current (Or.inr (Or.inl rfl))).mono (fun _ _ h ↦ h) ?_ fun _ _ _ h ↦ h
    intro stopping s w h
    cases stopping with
    | true => trivial
    | false => exact h
  · refine hnow.mono (fun _ _ h ↦ h) (fun t s w h ↦ ?_) fun _ _ _ h ↦ h
    split
    · trivial
    · exact h
  · refine (told_checkReusePipeline mrIid).mono (fun _ _ h ↦ h) ?_ fun _ _ _ h ↦ h
    intro result s w h
    cases result with
    | none => exact h
    | some result => exact h
  · refine hnow.mono (fun _ _ h ↦ h) (fun t s w h ↦ ?_) fun _ _ _ h ↦ h
    split
    · trivial
    · exact h
  · refine (told_idle_of_current (Or.inr (Or.inr ⟨_, rfl⟩))).mono (fun _ _ h ↦ h) ?_
      fun _ _ _ h ↦ h
    intro slept s w h
    cases slept with
    | true => exact h
    | false => trivial

theorem told_startTestingWithoutRebase (mrIid : ℕ) (mr : MergeRequest)
    (pipeline : Option Pipeline) :
    (startTestingWithoutRebase settings mrIid mr pipeline).Told (headObserver settings)
      (fun _ w ↦ Current mr w ∧ ∀ p ∈ pipeline, p ∈ w.pipelines) (fun _ _ _ ↦ True)
      fun _ _ _ ↦ True := by
  have henter (p : Pipeline) (sha : String) :
      (enterTesting settings p sha).Told (headObserver settings)
        (fun _ w ↦ Found w (some (p, sha))) (fun _ _ _ ↦ True) fun _ _ _ ↦ True := by
    rintro s w ⟨hready, rfl⟩
    exact told_enterTesting s w hready
  refine Safe.bind (told_resolveCurrentPipeline mr pipeline) fun result ↦ ?_
  cases result with
  | some entry => exact Safe.bind (henter entry.1 entry.2) fun _ ↦ Safe.ret fun _ _ _ ↦ trivial
  | none =>
      refine Safe.bind (told_pollReuse mrIid) fun outcome ↦ ?_
      cases outcome with
      | completed result =>
          exact Safe.bind (henter result.1 result.2) fun _ ↦ Safe.ret fun _ _ _ ↦ trivial
      | shutdownRequested => exact Safe.ret fun _ _ _ ↦ trivial
      | timedOut => exact Safe.throw fun _ _ _ ↦ trivial

/-! ## Waiting for the pipeline of a new head -/

/-- The pipeline of a new head is waited for since the rebase of `oldSha` was seen finished. -/
structure Settling (oldSha : String) (since : Option ℤ) (w : HeadWatch) : Prop where
  phase : w.phase = .settling since
  rebased : w.rebased = true
  old : w.old = oldSha

variable {oldSha : String}

theorem settling_pipelines {since : Option ℤ} (w : HeadWatch) (pipelines : List Pipeline)
    (h : Settling oldSha since w) :
    Settling oldSha since { w with pipelines := pipelines ++ w.pipelines } :=
  ⟨h.phase, h.rebased, h.old⟩

/-- The clock starts the wait. -/
theorem told_now_of_settling :
    Prog.now.Told (headObserver settings) (fun _ ↦ Settling oldSha none)
      (fun start _ ↦ Settling oldSha (some start)) fun _ _ _ ↦ True := by
  refine Told.call fun s w answer hw hkeeps _ ↦ ?_
  cases answer with
  | error e => exact ⟨hkeeps, trivial⟩
  | ok t =>
      change (w.tick _ t).wrong = false ∧ Settling oldSha (some t) (w.tick _ t)
      simp only [HeadWatch.tick, hw.phase]
      exact ⟨hkeeps, rfl, hw.rebased, hw.old⟩

/-- The clock tells whether the wait has run out. -/
theorem told_tick (start : ℤ) :
    Prog.now.Told (headObserver settings) (fun _ ↦ Settling oldSha (some start))
      (fun now _ w ↦ Settling oldSha (some start) w ∧ w.stage =
        if expired start now settings.postRebasePipelineWaitSeconds then .lapsed else .polling)
      fun _ _ _ ↦ True := by
  refine Told.call fun s w answer hw hkeeps _ ↦ ?_
  cases answer with
  | error e => exact ⟨hkeeps, trivial⟩
  | ok t =>
      have htick : w.tick settings.postRebasePipelineWaitSeconds t =
          { w with
            stage := if expired start t settings.postRebasePipelineWaitSeconds then .lapsed
              else .polling } := by
        simp only [HeadWatch.tick, hw.phase]
      change (w.tick settings.postRebasePipelineWaitSeconds t).wrong = false ∧
        Settling oldSha (some start) (w.tick settings.postRebasePipelineWaitSeconds t) ∧
        (w.tick settings.postRebasePipelineWaitSeconds t).stage = _
      rw [htick]
      exact ⟨hkeeps, ⟨hw.phase, hw.rebased, hw.old⟩, rfl⟩

/-- A read during the wait, or after it has run out. -/
theorem told_getMr_of_settling (mrIid : ℕ) {since : Option ℤ} (stage : WaitStage)
    (hstage : stage ≠ .asked) :
    (Prog.gitlab (.getMr mrIid false)).Told (headObserver settings)
      (fun _ w ↦ Settling oldSha since w ∧ w.stage = stage)
      (fun mr _ w ↦ Settling oldSha since w ∧
        (stage = .lapsed → (mr : MergeRequest).rebaseInProgress = false) ∧
        (mr.rebaseInProgress = false → mr ∈ w.reads)) fun _ _ _ ↦ True := by
  refine Told.call fun s w answer hw hkeeps hallowed ↦ ?_
  cases answer with
  | error e => exact ⟨hkeeps, trivial⟩
  | ok mr =>
      obtain ⟨hsettling, rfl⟩ := hw
      change (w.read mr).wrong = false ∧ Settling oldSha since (w.read mr) ∧ _ ∧
        (_ → mr ∈ (w.read mr).reads)
      simp only [HeadWatch.read, hsettling.phase, if_neg hstage]
      refine ⟨hkeeps, ⟨rfl, hsettling.rebased, hsettling.old⟩, fun hlapsed ↦ ?_, fun hrebase ↦ ?_⟩
      · exact hallowed.1 (by simp [HeadWatch.unguarded, hsettling.phase, hlapsed])
      · simp [hrebase]

/-- What is known of the pipeline and the head that the wait ends with. -/
def Waited (oldSha : String) (result : Option Pipeline × String) (w : HeadWatch) : Prop :=
  match result with
  | (some p, sha) => w.Ready p ∧ sha = p.sha
  | (none, _) => ∃ since, Settling oldSha since w

/-- A new head that was read without a rebase in progress may be tested with its pipeline. -/
theorem Settling.ready {since : Option ℤ} {w : HeadWatch} {mr : MergeRequest} {p : Pipeline}
    (h : Settling oldSha since w) (hmr : mr ∈ w.reads) (hnew : mr.sha ≠ oldSha)
    (hp : p ∈ w.pipelines) (hsha : p.sha = mr.sha) : w.Ready p where
  pipelines := hp
  reads := ⟨mr, hmr, hsha.symm⟩
  moved _ := by
    rw [hsha, h.old]
    exact hnew

theorem told_latest_of_settling (mrIid : ℕ) {since : Option ℤ} (mr : MergeRequest) :
    (Prog.gitlab (.getLatestMrPipeline mrIid)).Told (headObserver settings)
      (fun _ w ↦ Settling oldSha since w ∧ mr ∈ w.reads)
      (fun pipeline _ w ↦ (Settling oldSha since w ∧ mr ∈ w.reads) ∧
        ∀ p ∈ (pipeline : Option Pipeline), p ∈ w.pipelines) fun _ _ _ ↦ True :=
  told_getLatestMrPipeline mrIid fun w pipelines h ↦ ⟨settling_pipelines w pipelines h.1, h.2⟩

theorem told_checkPostRebasePipeline (mrIid : ℕ) (start : ℤ) (old : RebaseContext) :
    (checkPostRebasePipeline mrIid old).Told (headObserver settings)
      (fun _ w ↦ Settling old.oldSha (some start) w ∧ w.stage = .polling)
      (fun out _ w ↦ match out with
        | some result => Waited old.oldSha result w
        | none => Settling old.oldSha (some start) w) fun _ _ _ ↦ True := by
  refine Safe.bind (told_getMr_of_settling mrIid .polling (by decide)) fun mr ↦ ?_
  split_ifs with hstale
  · exact Safe.ret fun _ _ h ↦ h.1
  · obtain ⟨hrebase, hnew⟩ := not_or.mp hstale
    have hrebase : mr.rebaseInProgress = false := Bool.eq_false_iff.mpr hrebase
    refine Safe.bind ((told_latest_of_settling mrIid mr).mono (fun _ _ h ↦ ⟨h.1, h.2.2 hrebase⟩)
      (fun _ _ _ h ↦ h) fun _ _ _ h ↦ h) fun pipeline ↦ ?_
    cases pipeline with
    | none => exact Safe.ret fun _ _ h ↦ h.1.1
    | some p =>
        simp only
        split_ifs with hsame hsha
        · exact Safe.ret fun _ _ h ↦ h.1.1
        · exact Safe.ret fun _ _ h ↦ ⟨h.1.1.ready h.1.2 hnew (h.2 p rfl) hsha, hsha.symm⟩
        · exact Safe.ret fun _ _ h ↦ h.1.1

def settleSteps (oldSha : String) : WaitSteps (Option Pipeline × String) HeadWatch where
  between start _ w := Settling oldSha (some start) w
  asked start _ w := Settling oldSha (some start) w
  ready start _ w := Settling oldSha (some start) w ∧ w.stage = .polling
  polled start _ w := Settling oldSha (some start) w
  resting start _ w := Settling oldSha (some start) w
  done result _ w := Waited oldSha result w
  lapsed _ w := ∃ start, Settling oldSha (some start) w ∧ w.stage = .lapsed
  stopped _ w := ∃ start, Settling oldSha (some start) w

/-- Asking whether to stop and sleeping leave the wait as it is. -/
theorem told_pause_of_settling {op : Op} {since : Option ℤ}
    (hop : op = .shutdownRequested ∨ ∃ pause, op = .sleep pause) :
    (Prog.await op).Told (headObserver settings) (fun _ ↦ Settling oldSha since)
      (fun _ _ w ↦ Settling oldSha since w ∧ (op = .shutdownRequested → w.stage = .asked))
      fun _ _ _ ↦ True := by
  refine Told.call fun s w answer hw hkeeps _ ↦ ?_
  rcases hop with rfl | ⟨pause, rfl⟩
  · refine ⟨hkeeps, ?_⟩
    cases answer with
    | error e => trivial
    | ok stopping => exact ⟨⟨hw.phase, hw.rebased, hw.old⟩, fun _ ↦ rfl⟩
  · refine ⟨hkeeps, ?_⟩
    cases answer with
    | error e => trivial
    | ok slept => exact ⟨hw, fun h ↦ by cases h⟩

theorem told_pollSettling (mrIid : ℕ) (old : RebaseContext) :
    (pollUntilDone settings settings.postRebasePipelineWaitSeconds
      settings.pipelinePollIntervalSeconds (checkPostRebasePipeline mrIid old)).Told
      (headObserver settings) (fun _ ↦ Settling old.oldSha none)
      (settleSteps old.oldSha).ofOutcome fun _ _ _ ↦ True := by
  refine told_pollUntilDone (settleSteps old.oldSha) told_now_of_settling (fun start ↦ ?_)
    (fun start ↦ ?_) (fun start ↦ ?_) (fun start ↦ ?_) fun start ↦ ?_
  · refine (told_pause_of_settling (Or.inl rfl)).mono (fun _ _ h ↦ h) ?_ fun _ _ _ h ↦ h
    intro stopping s w h
    cases stopping with
    | true => exact ⟨start, h.1⟩
    | false => exact h.1
  · refine (told_tick start).mono (fun _ _ h ↦ h) (fun now s w h ↦ ?_) fun _ _ _ h ↦ h
    split_ifs with hexpired
    · exact ⟨start, h.1, h.2.trans (if_pos hexpired)⟩
    · exact ⟨h.1, h.2.trans (if_neg hexpired)⟩
  · exact (told_checkPostRebasePipeline mrIid start old).mono (fun _ _ h ↦ h)
      (fun out _ _ h ↦ by cases out <;> exact h) fun _ _ _ h ↦ h
  · refine (told_tick start).mono (fun _ _ h ↦ h) (fun now s w h ↦ ?_) fun _ _ _ h ↦ h
    split_ifs with hexpired
    · exact ⟨start, h.1, h.2.trans (if_pos hexpired)⟩
    · exact h.1
  · refine (told_pause_of_settling (Or.inr ⟨_, rfl⟩)).mono (fun _ _ h ↦ h) ?_ fun _ _ _ h ↦ h
    intro slept s w h
    cases slept with
    | true => exact h.1
    | false => exact ⟨start, h.1⟩

theorem told_waitForPostRebasePipeline (mrIid : ℕ) (old : RebaseContext) :
    (waitForPostRebasePipeline settings mrIid old).Told (headObserver settings)
      (fun _ ↦ Settling old.oldSha none) (fun result _ w ↦ Waited old.oldSha result w)
      fun _ _ _ ↦ True := by
  refine Safe.bind (told_pollSettling mrIid old) fun outcome ↦ ?_
  cases outcome with
  | completed result => exact Safe.ret fun _ _ h ↦ h
  | shutdownRequested => exact Safe.ret fun _ _ ⟨start, h⟩ ↦ ⟨_, h⟩
  | timedOut =>
      -- The read after the time has run out is not asked about a rebase.
      rintro s w ⟨start, hlapsed⟩
      refine Safe.bind (told_getMr_of_settling mrIid .lapsed (by decide)) (fun mr ↦ ?_) s w hlapsed
      split_ifs with hold
      · exact Safe.ret fun _ _ h ↦ ⟨_, h.1⟩
      · refine Safe.bind ((told_latest_of_settling mrIid mr).mono
          (fun _ _ h ↦ ⟨h.1, h.2.2 (h.2.1 rfl)⟩) (fun _ _ _ h ↦ h) fun _ _ _ h ↦ h)
          fun pipeline ↦ Safe.ret fun _ w h ↦ ?_
        cases hp : pipeline.filter fun p ↦ p.sha = mr.sha with
        | none => exact ⟨_, h.1.1⟩
        | some p =>
            obtain ⟨hpipeline, hsha⟩ := Option.filter_eq_some_iff.mp hp
            have hsha : p.sha = mr.sha := of_decide_eq_true hsha
            exact ⟨h.1.1.ready h.1.2 hold (h.2 p hpipeline) hsha, hsha.symm⟩

/-! ## The rebase -/

theorem told_afterRebase (mrIid : ℕ) (old : RebaseContext) :
    (afterRebase settings mrIid old).Told (headObserver settings)
      (fun _ ↦ Settling old.oldSha none)
      (fun out _ w ↦ out = none → w.old = old.oldSha) fun _ _ _ ↦ True := by
  refine Safe.bind (told_waitForPostRebasePipeline mrIid old) fun result ↦ ?_
  obtain ⟨pipeline, newSha⟩ := result
  cases pipeline with
  | some p =>
      rintro s w ⟨hready, rfl⟩
      refine Safe.bind told_enterTesting (fun _ ↦ Safe.ret fun _ _ _ h ↦ ?_) s w hready
      cases h
  | none =>
      simp only
      split_ifs
      · rintro s w ⟨since, hsettling⟩
        refine Safe.bind (told_pause_of_settling (Or.inl rfl)) (fun stopping ↦ ?_) s w hsettling
        split_ifs
        · exact Safe.ret fun _ _ h _ ↦ h.1.old
        · refine Safe.bind ((told_getMr_of_reusing mrIid fun _ h ↦ h).mono
            (fun _ _ h ↦ Or.inr ⟨since, h.1.phase, h.2 rfl⟩) (fun _ _ _ h ↦ h) fun _ _ _ h ↦ h)
            fun mr ↦ ?_
          refine Safe.bind (told_getLatestMrPipeline mrIid current_pipelines) fun current ↦ ?_
          refine Safe.bind (told_startTestingWithoutRebase mrIid mr current) fun result ↦
            Safe.ret fun _ _ _ h ↦ ?_
          cases h
      · exact Safe.ret fun _ _ ⟨since, h⟩ _ ↦ h.old

/-- The merge request is in the state that the report on the rebase tells. -/
theorem told_checkRebaseStatus (mrIid : ℕ) :
    (Prog.gitlab (.checkRebaseStatus mrIid)).Told (headObserver settings)
      (fun _ w ↦ w.old = oldSha)
      (fun out _ w ↦ w.old = oldSha ∧
        ((out : Bool × Bool × Option String).1 = false → out.2.1 = false →
          Settling oldSha none w)) fun _ _ _ ↦ True := by
  refine Told.call fun s w answer hw hkeeps _ ↦ ?_
  cases answer with
  | error e => exact ⟨hkeeps, trivial⟩
  | ok out =>
      obtain ⟨running, failed, mergeError⟩ := out
      change (w.status running failed).wrong = false ∧ (w.status running failed).old = oldSha ∧ _
      unfold HeadWatch.status
      split_ifs with hbusy
      · refine ⟨hkeeps, hw, fun hrunning hfailed ↦ ?_⟩
        have hrunning : running = false := hrunning
        have hfailed : failed = false := hfailed
        simp [hrunning, hfailed] at hbusy
      · obtain ⟨rfl, rfl⟩ := Bool.or_eq_false_iff.mp (Bool.eq_false_iff.mpr hbusy)
        exact ⟨hkeeps, hw, fun _ _ ↦ ⟨rfl, rfl, hw⟩⟩

theorem told_checkRebase (mrIid : ℕ) (old : RebaseContext) :
    (checkRebase settings mrIid old).Told (headObserver settings) (fun _ w ↦ w.old = old.oldSha)
      (fun out _ w ↦ out = none → w.old = old.oldSha) fun _ _ _ ↦ True := by
  refine Safe.bind (told_checkRebaseStatus mrIid) fun out ↦ ?_
  obtain ⟨running, failed, mergeError⟩ := out
  simp only
  split_ifs with hfailed hrunning
  · have hconflicts : (Prog.gitlab (.getMrConflicts mrIid)).Told (headObserver settings)
        (fun _ _ ↦ True) (fun _ _ _ ↦ True) fun _ _ _ ↦ True :=
      told_same fun _ _ ↦ rfl
    refine Safe.bind (hconflicts.mono (fun _ _ _ ↦ trivial) (fun _ _ _ h ↦ h) fun _ _ _ h ↦ h)
      fun files ↦ ?_
    refine Safe.bind (told_of_settles (MRStateMachine.keeps_triggerRebaseFailed enters_settles _ _))
      fun _ ↦ Safe.ret fun _ _ _ h ↦ ?_
    cases h
  · exact Safe.ret fun _ _ h _ ↦ h.1
  · have hfinished := Bool.eq_false_iff.mpr hrunning
    exact (told_afterRebase mrIid old).mono
      (fun _ _ h ↦ h.2 hfinished (Bool.eq_false_iff.mpr hfailed)) (fun _ _ _ h ↦ h) fun _ _ _ h ↦ h

/-- Waiting leaves the head before the rebase as it was noted. -/
theorem told_pause {op : Op}
    (hop : op = .now ∨ op = .shutdownRequested ∨ ∃ pause, op = .sleep pause) :
    (Prog.await op).Told (headObserver settings) (fun _ w ↦ w.old = oldSha)
      (fun _ _ w ↦ w.old = oldSha) fun _ _ _ ↦ True := by
  refine Told.call fun s w answer hw hkeeps _ ↦ ?_
  have hobserved : (headObserver settings).keeps ((headObserver settings).observe w ⟨op, answer⟩) ∧
      ((headObserver settings).observe w ⟨op, answer⟩).old = oldSha := by
    rcases hop with rfl | rfl | ⟨pause, rfl⟩
    · cases answer with
      | error e => exact ⟨hkeeps, hw⟩
      | ok t =>
          have hsame := HeadWatch.same_tick settings.postRebasePipelineWaitSeconds (w := w) t
          exact ⟨hsame.wrong.trans hkeeps, hsame.old.trans hw⟩
    · exact ⟨hkeeps, hw⟩
    · exact ⟨hkeeps, hw⟩
  refine ⟨hobserved.1, ?_⟩
  cases answer with
  | error e => trivial
  | ok a => exact hobserved.2

def rebaseSteps (oldSha : String) : WaitSteps ProcessingResult HeadWatch where
  between _ _ w := w.old = oldSha
  asked _ _ w := w.old = oldSha
  ready _ _ w := w.old = oldSha
  polled _ _ w := w.old = oldSha
  resting _ _ w := w.old = oldSha
  done _ _ _ := True
  lapsed _ _ := True
  stopped _ _ := True

theorem told_waitForRebase (mrIid : ℕ) (old : RebaseContext) :
    (waitForRebase settings mrIid old).Told (headObserver settings)
      (fun _ w ↦ w.old = old.oldSha) (fun _ _ _ ↦ True) fun _ _ _ ↦ True := by
  have hnow : Prog.now.Told (headObserver settings) (fun _ w ↦ w.old = old.oldSha)
      (fun _ _ w ↦ w.old = old.oldSha) fun _ _ _ ↦ True := told_pause (Or.inl rfl)
  have hpoll : (pollUntilDone settings settings.rebaseTimeoutSeconds rebasePollIntervalSeconds
      (checkRebase settings mrIid old)).Told (headObserver settings)
      (fun _ w ↦ w.old = old.oldSha) (rebaseSteps old.oldSha).ofOutcome fun _ _ _ ↦ True := by
    refine told_pollUntilDone (rebaseSteps old.oldSha) hnow (fun _ ↦ ?_) (fun _ ↦ ?_) (fun _ ↦ ?_)
      (fun _ ↦ ?_) fun _ ↦ ?_
    · refine (told_pause (Or.inr (Or.inl rfl))).mono (fun _ _ h ↦ h) ?_ fun _ _ _ h ↦ h
      intro stopping s w h
      cases stopping with
      | true => trivial
      | false => exact h
    · refine hnow.mono (fun _ _ h ↦ h) (fun t s w h ↦ ?_) fun _ _ _ h ↦ h
      split
      · trivial
      · exact h
    · refine (told_checkRebase mrIid old).mono (fun _ _ h ↦ h) ?_ fun _ _ _ h ↦ h
      intro out s w h
      cases out with
      | none => exact h rfl
      | some result => trivial
    · refine hnow.mono (fun _ _ h ↦ h) (fun t s w h ↦ ?_) fun _ _ _ h ↦ h
      split
      · trivial
      · exact h
    · refine (told_pause (Or.inr (Or.inr ⟨_, rfl⟩))).mono (fun _ _ h ↦ h) ?_ fun _ _ _ h ↦ h
      intro slept s w h
      cases slept with
      | true => exact h
      | false => trivial
  refine Safe.bind hpoll fun outcome ↦ ?_
  cases outcome with
  | completed result => exact Safe.ret fun _ _ _ ↦ trivial
  | shutdownRequested => exact Safe.ret fun _ _ _ ↦ trivial
  | timedOut =>
      exact Safe.bind (told_of_settles (MRStateMachine.keeps_triggerTimeout enters_settles _))
        fun _ ↦ Safe.ret fun _ _ _ ↦ trivial

theorem told_initiateRebase (mrIid : ℕ) :
    (initiateRebase settings mrIid).Told (headObserver settings) (fun _ w ↦ w.old = oldSha)
      (fun out _ w ↦ out = none → w.old = oldSha) fun _ _ _ ↦ True := by
  have hrebase : (Prog.gitlab (.rebaseMr mrIid)).Told (headObserver settings)
      (fun _ w ↦ w.old = oldSha) (fun _ _ w ↦ w.old = oldSha) fun _ _ w ↦ w.old = oldSha :=
    told_same fun _ _ ↦ rfl
  refine told_catching (fun _ w ↦ w.old = oldSha) ?_ (fun e ↦ ?_) fun _ _ _ _ ↦ trivial
  · exact Safe.bind hrebase fun _ ↦ Safe.ret fun _ _ h _ ↦ h
  · have hconflicts : (Prog.gitlab (.getMrConflicts mrIid)).Told (headObserver settings)
        (fun _ _ ↦ True) (fun _ _ _ ↦ True) fun _ _ _ ↦ True := told_same fun _ _ ↦ rfl
    refine Safe.bind (hconflicts.mono (fun _ _ _ ↦ trivial) (fun _ _ _ h ↦ h) fun _ _ _ h ↦ h)
      fun files ↦ ?_
    refine Safe.bind (told_of_settles (MRStateMachine.keeps_triggerRebaseFailed enters_settles _ _))
      fun _ ↦ Safe.ret fun _ _ _ h ↦ ?_
    cases h

/-- The first read decides whether a rebase is needed. -/
theorem told_capturePreRebaseState (mrIid : ℕ) :
    (capturePreRebaseState mrIid).Told (headObserver settings) (fun _ w ↦ w = {})
      (fun out _ w ↦
        if isUpToDate out.1 then Current out.1 w ∧ ∀ p ∈ out.2, p ∈ w.pipelines
        else w.old = out.1.sha) fun _ _ _ ↦ True := by
  have hread : (Prog.gitlab (.getMr mrIid true)).Told (headObserver settings) (fun _ w ↦ w = {})
      (fun mr _ w ↦ if isUpToDate mr then Current mr w else w.old = (mr : MergeRequest).sha)
      fun _ _ _ ↦ True := by
    refine Told.call fun s w answer hw hkeeps _ ↦ ?_
    subst hw
    cases answer with
    | error e => exact ⟨rfl, trivial⟩
    | ok mr =>
        change (HeadWatch.read {} mr).wrong = false ∧ _
        have hobserve : (headObserver settings).observe {} ⟨.gitlab (.getMr mrIid true), .ok mr⟩ =
            HeadWatch.read {} mr := rfl
        simp only [hobserve, HeadWatch.read]
        split_ifs
        · exact ⟨rfl, rfl, List.mem_singleton_self _, fun h ↦ by cases h⟩
        · exact ⟨rfl, rfl⟩
  refine Safe.bind hread fun mr ↦ ?_
  refine Safe.bind (told_getLatestMrPipeline mrIid fun w pipelines h ↦ ?_) fun pipeline ↦
    Safe.ret fun _ w h ↦ ?_
  · split_ifs at h ⊢
    · exact current_pipelines w pipelines h
    · exact h
  · split_ifs at h ⊢
    · exact h
    · exact h.1

theorem told_processRebase (mrIid : ℕ) :
    (processRebase settings mrIid).Told (headObserver settings) (fun _ w ↦ w = {})
      (fun _ _ _ ↦ True) fun _ _ _ ↦ True := by
  refine Safe.bind (told_capturePreRebaseState mrIid) fun out ↦ ?_
  obtain ⟨mr, pipeline⟩ := out
  let old : RebaseContext := { oldSha := mr.sha, oldPipelineId := pipeline.map Pipeline.id }
  have hwait : (waitForRebase settings mrIid old).Told (headObserver settings)
      (fun _ w ↦ w.old = mr.sha) (fun _ _ _ ↦ True) fun _ _ _ ↦ True := told_waitForRebase mrIid old
  simp only
  split_ifs with hcurrent hrunning
  · exact told_startTestingWithoutRebase mrIid mr pipeline
  · exact hwait
  · refine Safe.bind (told_initiateRebase mrIid) fun result ↦ ?_
    cases result with
    | some result => exact Safe.ret fun _ _ _ ↦ trivial
    | none => exact hwait.mono (fun _ _ h ↦ h rfl) (fun _ _ _ h ↦ h) fun _ _ _ h ↦ h

end RebaseHandler

/-- Where no read that takes any answer reports a rebase in progress or, after another head
was reported, the old one, testing starts on a pipeline of the head that was read last. -/
theorem testing_starts_on_the_new_head (settings : Settings) (mrIid : ℕ) (s : Local)
    (replies : List (Reply Op Op.Answer PyError))
    (hallowed : (headObserver settings).Allows {}
      ((RebaseHandler.processRebase settings mrIid s).converse replies).1) :
    ((headObserver settings).after {}
      ((RebaseHandler.processRebase settings mrIid s).converse replies).1).wrong = false :=
  (Task.Safe.converse rfl (RebaseHandler.told_processRebase mrIid s {} rfl) replies hallowed).1

/-! ## A rebase on the way that one read does not look at -/

def headSettings : Settings where
  gitlabProjectId := 1
  rounds := 2

def rebasingLocal : Local where
  machine := some { projectId := 1, mrIid := 7, targetBranch := "master", current := .rebasing }

/-- Answers about the merge request with this head, whose latest pipeline is on it. -/
def answersAt (sha : String) (rebaseInProgress : Bool) (now : ℤ) : Choice where
  now
  gitlab
    | .getMr .. =>
        { sampleMergeRequest with sha, rebaseInProgress, divergedCommitsCount := some 2 }
    | .getLatestMrPipeline _ => some { id := 5, status := .running, sha, ref := "fix" }
    | call => answersFor sampleMergeRequest call

/-- The rebase has finished, and the time for its pipeline runs out before the first poll.
The read that follows reports the new head, with or without another rebase on the way. -/
def lapsedReplies (rebaseInProgress : Bool) : List (Reply Op Op.Answer PyError) :=
  (List.replicate 8 (answersAt "a1" false 0) ++
    List.replicate 20 (answersAt "b2" rebaseInProgress 100000000)).map
      ({ db := sampleDatabase : World }.reply headSettings.qm)

theorem testing_starts_on_the_new_head_lapsed :
    ((headObserver headSettings).after {}
      ((RebaseHandler.processRebase headSettings 7 rebasingLocal).converse
        (lapsedReplies false)).1).wrong = false :=
  testing_starts_on_the_new_head headSettings 7 rebasingLocal (lapsedReplies false)
    (by decide +kernel)

/-- Testing starts on a head that was read while a rebase was in progress. -/
theorem testing_starts_during_rebase :
    ¬ ∀ (settings : Settings) (mrIid : ℕ) (s : Local)
        (replies : List (Reply Op Op.Answer PyError)),
      ((headObserver settings).after {}
        ((RebaseHandler.processRebase settings mrIid s).converse replies).1).wrong = false := by
  intro hclaim
  have hwrong := hclaim headSettings 7 rebasingLocal (lapsedReplies true)
  exact absurd hwrong (by decide +kernel)

end MergeQueue
