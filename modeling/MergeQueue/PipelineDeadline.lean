import MergeQueue.RetryCounts
import MergeQueue.PipelineSteps
import MergeQueue.RequeueTransfer
import MergeQueue.Lib.Rounds

/-!
# The deadline of a pipeline

The wait for one pipeline gives up at a deadline that retries move.  A retry that succeeds
spends one of the retries of its name.  Where GitLab refuses the retries because somebody
else has made them, the deadline moves and nothing is spent.
-/

namespace MergeQueue

open Counts (countOf setCount)
open Interleave (Meets Observer Program Reply Round Task)
open Interleave.Program (Asks Keeps Leaves Safe Told passes)
open QueueCompletion (enters_settles)

/-! ## What is noted of the polls -/

/-- What GitLab answered to the retries of one poll, and whether it reported an active job. -/
structure RetryAnswers where
  succeeded : Bool := false
  refused : Bool := false
  failed : Bool := false
  active : Bool := false
  deriving DecidableEq, Repr

namespace RetryAnswers

/-- A poll begins by asking whether to stop. -/
def note (a : RetryAnswers) : ProgExchange → RetryAnswers
  | ⟨.shutdownRequested, _⟩ => {}
  | ⟨.gitlab (.retryPipelineJob _), .ok _⟩ => { a with succeeded := true }
  | ⟨.gitlab (.retryPipelineJob _), .error e⟩ =>
      if PipelineHandler.notRetryable e then { a with refused := true }
      else { a with failed := true }
  | ⟨.gitlab (.getPipelineJobs _), .ok jobs⟩ =>
      { a with active := a.active || jobs.any PipelineHandler.isActiveJob }
  | _ => a

/-- GitLab refused every retry, and reported a job as active. -/
def external (a : RetryAnswers) : Bool := !a.succeeded && a.refused && !a.failed && a.active

end RetryAnswers

abbrev Poll := Round Op Op.Answer PyError PipelineWaitState

namespace Poll

/-- The poll moved the start of the timeout. -/
def moved (p : Poll) : Bool := decide (p.after.startTime ≠ p.before.startTime)

/-- Somebody else has retried the jobs whose retry the poll asked for. -/
def external (p : Poll) : Bool := (p.log.foldl RetryAnswers.note {}).external

/-- The poll used the last chance after the timeout. -/
def lastChance (p : Poll) : Bool :=
  !p.before.timeoutLastChanceUsed && p.after.timeoutLastChanceUsed

end Poll

/-- The polls of a call of `wait_for_pipeline` that did not end it. -/
def PipelineHandler.polls (settings : Settings) (mrIid : ℕ) (s : Local)
    (replies : List (Reply Op Op.Answer PyError)) : List Poll :=
  match (initPipelineWaitState settings mrIid s).converse replies with
  | (log, .done (.ok state) s') =>
      passes (pipelineRound settings mrIid) settings.rounds (replies.drop log.length) state s'
  | _ => []

/-- The time that has been reached, and the answers in the poll so far. -/
structure DeadlineWatch where
  clock : ℤ
  answers : RetryAnswers := {}
  deriving DecidableEq, Repr

namespace DeadlineWatch

/-- A sleep between two polls lasts as long as it should. -/
def observe (w : DeadlineWatch) (e : ProgExchange) : DeadlineWatch where
  clock :=
    match e with
    | ⟨.now, .ok t⟩ => t
    | ⟨.sleep (.poll seconds), _⟩ => w.clock + seconds * 1000000
    | _ => w.clock
  answers := w.answers.note e

/-- The jobs have the names, nothing is rebased, and no other pipeline is adopted.  Where the
wait is timed, no time is reported that lies before one that was reached. -/
def steady (names : Finset String) (timed : Bool) (w : DeadlineWatch) : ProgExchange → Prop
  | ⟨.now, .ok t⟩ => timed = true → w.clock ≤ t
  | ⟨.gitlab (.getPipelineJobs _), .ok jobs⟩ => ∀ job ∈ (jobs : List Job), job.name ∈ names
  | ⟨.gitlab (.rebaseMr _), _⟩ => False
  | ⟨.db (.updateMrState _ _ _ extra), _⟩ => extra.pipelineId = none
  | _ => True

instance decidableSteady (names : Finset String) (timed : Bool) (w : DeadlineWatch)
    (e : ProgExchange) : Decidable (w.steady names timed e) := by
  unfold steady
  split <;> infer_instance

end DeadlineWatch

def deadlineObserver (names : Finset String) (timed : Bool) :
    Observer Op Op.Answer PyError DeadlineWatch where
  observe := DeadlineWatch.observe
  allowed := DeadlineWatch.steady names timed

instance (names : Finset String) (timed : Bool) (w : DeadlineWatch) (e : ProgExchange) :
    Decidable ((deadlineObserver names timed).allowed w e) :=
  DeadlineWatch.decidableSteady names timed w e

/-! ## What the operations do to the record -/

/-- The operation neither begins a poll nor retries a job. -/
def Op.idle : Op → Bool
  | shutdownRequested | gitlab (.retryPipelineJob _) => false
  | _ => true

theorem Op.idle_of_settles {op : Op} (h : op.settles = true) : op.idle = true := by
  cases op with
  | gitlab call => cases call <;> first | rfl | cases h
  | shutdownRequested => cases h
  | _ => rfl

namespace DeadlineWatch

variable (timed : Bool) {w w' : DeadlineWatch}

/-- Nothing was retried between the two records. -/
structure Later (w w' : DeadlineWatch) : Prop where
  clock : timed = true → w.clock ≤ w'.clock
  succeeded : w'.answers.succeeded = w.answers.succeeded
  refused : w'.answers.refused = w.answers.refused
  failed : w'.answers.failed = w.answers.failed
  active : w.answers.active = true → w'.answers.active = true

/-- Nothing has been retried in the poll. -/
structure Clean (w : DeadlineWatch) : Prop where
  succeeded : w.answers.succeeded = false
  refused : w.answers.refused = false
  failed : w.answers.failed = false

theorem Clean.later (h : w.Clean) (hlater : Later timed w w') : w'.Clean :=
  ⟨hlater.succeeded.trans h.succeeded, hlater.refused.trans h.refused,
    hlater.failed.trans h.failed⟩

theorem external_later (hlater : Later timed w w') (h : w.answers.external = true) :
    w'.answers.external = true := by
  simp only [RetryAnswers.external, Bool.and_eq_true] at h ⊢
  rw [hlater.succeeded, hlater.refused, hlater.failed]
  exact ⟨h.1, hlater.active h.2⟩

/-- The clock goes on at every exchange that is allowed. -/
theorem clock_observe {names : Finset String} {e : ProgExchange}
    (h : (deadlineObserver names timed).allowed w e) (htimed : timed = true) :
    w.clock ≤ (w.observe e).clock := by
  obtain ⟨op, answer⟩ := e
  cases op with
  | now =>
      cases answer with
      | ok t => exact h htimed
      | error e => exact le_rfl
  | sleep pause =>
      cases pause with
      | poll seconds =>
          change w.clock ≤ w.clock + seconds * 1000000
          have hslept : (0 : ℤ) ≤ seconds * 1000000 := by positivity
          omega
      | iteration => exact le_rfl
  | _ => exact le_rfl

theorem later_observe {names : Finset String} {op : Op} (hop : op.idle = true)
    {answer : Except PyError op.Answer}
    (h : (deadlineObserver names timed).allowed w ⟨op, answer⟩) :
    Later timed w (w.observe ⟨op, answer⟩) := by
  have hclock := clock_observe timed h
  cases op with
  | gitlab call =>
      cases call with
      | retryPipelineJob => cases hop
      | getPipelineJobs id =>
          cases answer with
          | error e => exact ⟨hclock, rfl, rfl, rfl, fun hactive ↦ hactive⟩
          | ok jobs =>
              refine ⟨hclock, rfl, rfl, rfl, fun hactive ↦ ?_⟩
              change (w.answers.active || jobs.any PipelineHandler.isActiveJob) = true
              rw [hactive, Bool.true_or]
      | _ => exact ⟨hclock, rfl, rfl, rfl, fun hactive ↦ hactive⟩
  | shutdownRequested => cases hop
  | _ => exact ⟨hclock, rfl, rfl, rfl, fun hactive ↦ hactive⟩

/-- What stays true as time goes on. -/
def Patient (inv : DeadlineWatch → Prop) : Prop :=
  ∀ w w', (timed = true → w.clock ≤ w'.clock) → inv w → inv w'

/-- What stays true while nothing is retried. -/
def Steady (inv : DeadlineWatch → Prop) : Prop := ∀ w w', Later timed w w' → inv w → inv w'

theorem Patient.steady {inv : DeadlineWatch → Prop} (h : Patient timed inv) : Steady timed inv :=
  fun w w' hlater ↦ h w w' hlater.clock

theorem steady_clean {inv : DeadlineWatch → Prop} (h : Patient timed inv) :
    Steady timed fun w ↦ inv w ∧ w.Clean :=
  fun w w' hlater hw ↦ ⟨h w w' hlater.clock hw.1, hw.2.later timed hlater⟩

end DeadlineWatch

open DeadlineWatch (Clean Later Patient Steady)

section Steps

variable {names : Finset String} {timed : Bool} {inv : DeadlineWatch → Prop} {α : Type}

/-- A program that retries nothing. -/
theorem told_of_idle (hinv : Steady timed inv) {post : α → Local → Prop} {p : Prog α}
    (h : p.Asks (fun _ _ ↦ True) (fun _ op ↦ op.idle = true) (fun _ ↦ True) post fun _ _ ↦ True) :
    p.Told (deadlineObserver names timed) (fun _ ↦ inv) (fun a s w ↦ post a s ∧ inv w)
      fun _ _ _ ↦ True := by
  have htold : p.Told (deadlineObserver names timed) (fun _ w ↦ True ∧ inv w)
      (fun a s w ↦ post a s ∧ inv w) fun _ _ w ↦ True ∧ inv w :=
    Told.of_asks h fun s op w answer hop hw _ hallowed ↦
      ⟨trivial, hinv _ _ (DeadlineWatch.later_observe timed hop hallowed) hw⟩
  exact htold.mono (fun _ _ h ↦ ⟨trivial, h⟩) (fun _ _ _ h ↦ h) fun _ _ _ _ ↦ trivial

theorem told_of_keeps_idle (hinv : Steady timed inv) {p : Prog α}
    (h : p.Keeps (fun op ↦ op.idle = true) fun _ ↦ True) :
    p.Told (deadlineObserver names timed) (fun _ ↦ inv) (fun _ _ ↦ inv) fun _ _ _ ↦ True :=
  (told_of_idle hinv h).mono (fun _ _ h ↦ h) (fun _ _ _ h ↦ h.2) fun _ _ _ h ↦ h

theorem told_idle (hinv : Steady timed inv) {op : Op} (hop : op.idle = true) :
    (Prog.await op).Told (deadlineObserver names timed) (fun _ ↦ inv) (fun _ _ ↦ inv)
      fun _ _ _ ↦ True :=
  told_of_keeps_idle hinv (Keeps.call hop)

/-- A step after which nothing needs to be known. -/
theorem told_ending {p : Prog α} :
    p.Told (deadlineObserver names timed) (fun _ _ ↦ True) (fun _ _ _ ↦ True) fun _ _ _ ↦ True :=
  Told.any fun _ _ _ _ ↦ trivial

/-- The time is not before the time that was reached. -/
theorem told_now (hinv : Steady timed inv) :
    Prog.now.Told (deadlineObserver names timed) (fun _ ↦ inv)
      (fun t _ w ↦ inv w ∧ w.clock = t) fun _ _ _ ↦ True := by
  refine Told.call fun s w answer hw _ hallowed ↦ ⟨trivial, ?_⟩
  cases answer with
  | error e => trivial
  | ok t => exact ⟨hinv _ _ (DeadlineWatch.later_observe timed rfl hallowed) hw, rfl⟩

/-- No other pipeline is adopted. -/
theorem told_adopt {settings : Settings} {mrIid : ℕ} {extra : QueueManager.Extra}
    (hextra : extra.pipelineId ≠ none) {pre : Local → DeadlineWatch → Prop} :
    (PipelineHandler.writeTesting settings mrIid extra).Told (deadlineObserver names timed) pre
      (fun _ _ _ ↦ False) fun _ _ _ ↦ True := by
  have hwrite : (Prog.db (.updateMrState settings.gitlabProjectId mrIid .testing extra)).Told
      (deadlineObserver names timed) pre (fun _ _ _ ↦ False) fun _ _ _ ↦ True :=
    Told.call fun _ _ _ _ _ hallowed ↦ absurd hallowed hextra
  exact Safe.bind hwrite fun _ _ _ h ↦ h.elim

end Steps

/-! ## Retries -/

namespace Deadline

open PipelineHandler

variable {settings : Settings} {names : Finset String} {timed : Bool}
  {inv : DeadlineWatch → Prop}

/-- The answers to some retries, noted one after the other. -/
def noteAnswers (a : RetryAnswers) (answers : List (Job × Except PyError Job)) : RetryAnswers :=
  answers.foldl (fun a entry ↦ a.note ⟨.gitlab (.retryPipelineJob entry.1.id), entry.2⟩) a

/-- The signal of a poll: the counts have not shrunk, and where the deadline moves, a retry
was spent below the limit or somebody else made the retries. -/
structure Signalled (settings : Settings) (names : Finset String) (timed : Bool)
    (counts : List (String × ℕ)) (signal : RetrySignal) (w : DeadlineWatch) : Prop where
  grown : ∀ job, countOf counts job ≤ countOf signal.retriedJobs job
  start : ∀ t, signal.newStartTime = some t → (timed = true → t ≤ w.clock) ∧
    (w.answers.external = true ∨ ∃ name ∈ names, countOf counts name < settings.jobRetryCount ∧
      countOf counts name < countOf signal.retriedJobs name)

theorem told_retryJobs (hinv : Patient timed inv) (a : RetryAnswers) (jobs : List Job) :
    (retryJobs jobs).Told (deadlineObserver names timed)
      (fun _ w ↦ inv w ∧ w.answers = a)
      (fun answers _ w ↦ inv w ∧ answers.map Prod.fst = jobs ∧ w.answers = noteAnswers a answers)
      fun _ _ _ ↦ True := by
  induction jobs generalizing a with
  | nil => exact Safe.ret fun _ _ h ↦ ⟨h.1, rfl, h.2⟩
  | cons job jobs ih =>
      have hcall : (Prog.gitlab (.retryPipelineJob job.id)).Told (deadlineObserver names timed)
          (fun _ w ↦ inv w ∧ w.answers = a)
          (fun retried _ w ↦ inv w ∧
            w.answers = a.note ⟨.gitlab (.retryPipelineJob job.id), .ok retried⟩)
          fun e _ w ↦ inv w ∧
            w.answers = a.note ⟨.gitlab (.retryPipelineJob job.id), .error e⟩ := by
        refine Told.call fun s w answer hw _ hallowed ↦ ⟨trivial, ?_⟩
        obtain ⟨hw, rfl⟩ := hw
        have hlater := hinv _ _ (DeadlineWatch.clock_observe timed hallowed) hw
        cases answer with
        | ok retried => exact ⟨hlater, rfl⟩
        | error e => exact ⟨hlater, rfl⟩
      have hanswer : (catching PyError.isException
          (do
            let retried : Job ← Prog.gitlab (.retryPipelineJob job.id)
            return (.ok retried : Except PyError Job))
          fun e ↦ pure (.error e)).Told (deadlineObserver names timed)
          (fun _ w ↦ inv w ∧ w.answers = a)
          (fun answer _ w ↦ inv w ∧
            w.answers = a.note ⟨.gitlab (.retryPipelineJob job.id), answer⟩)
          fun _ _ _ ↦ True := by
        refine Safe.handle (Safe.bind hcall fun retried ↦ Safe.ret fun _ _ h ↦ h) fun e ↦ ?_
        split_ifs
        · exact Safe.ret fun _ _ h ↦ h
        · exact Safe.throw fun _ _ _ ↦ trivial
      refine Safe.bind hanswer fun answer ↦ Safe.bind (ih _) fun answers ↦ Safe.ret ?_
      rintro s w ⟨hw, hjobs, hnoted⟩
      exact ⟨hw, by rw [List.map_cons, hjobs], hnoted⟩

/-- Where no retry succeeded and all errors are refusals, all retries were refused. -/
theorem noteAnswers_refused {a : RetryAnswers} {answers : List (Job × Except PyError Job)}
    (hsucceeded : succeeded answers = [])
    (hrefused : (retryErrors answers).all (fun entry ↦ notRetryable entry.2) = true) :
    (noteAnswers a answers).succeeded = a.succeeded ∧ (noteAnswers a answers).failed = a.failed ∧
      ((noteAnswers a answers).refused = (a.refused || !(retryErrors answers).isEmpty)) := by
  induction answers generalizing a with
  | nil => exact ⟨rfl, rfl, by simp [noteAnswers, retryErrors]⟩
  | cons entry answers ih =>
      obtain ⟨job, answer⟩ := entry
      cases answer with
      | ok retried => simp [succeeded, Except.toOption] at hsucceeded
      | error e =>
          have hsucceeded : succeeded answers = [] := by
            simpa [succeeded, Except.toOption] using hsucceeded
          have herrors : retryErrors ((job, Except.error e) :: answers) =
              (job, e) :: retryErrors answers := rfl
          rw [herrors, List.all_cons, Bool.and_eq_true] at hrefused
          have hnote : noteAnswers a ((job, Except.error e) :: answers) =
              noteAnswers { a with refused := true } answers := by
            simp only [noteAnswers, List.foldl_cons, RetryAnswers.note, if_pos hrefused.1]
          obtain ⟨h₁, h₂, h₃⟩ := ih (a := { a with refused := true }) hsucceeded hrefused.2
          rw [hnote, herrors]
          exact ⟨h₁, h₂, h₃.trans (by simp)⟩

theorem told_retriedExternally (hinv : Steady timed inv) (pipelineId : ℕ)
    (errors : List (Job × PyError)) :
    (retriedExternally pipelineId errors).Told (deadlineObserver names timed) (fun _ ↦ inv)
      (fun external _ w ↦ inv w ∧ (external = true → w.answers.active = true ∧
        errors.all (fun entry ↦ notRetryable entry.2) = true)) fun _ _ _ ↦ True := by
  unfold retriedExternally
  split_ifs with hrefused
  · have hjobs : (Prog.gitlab (.getPipelineJobs pipelineId)).Told (deadlineObserver names timed)
        (fun _ ↦ inv)
        (fun jobs _ w ↦ inv w ∧ ((jobs : List Job).any isActiveJob = true →
          w.answers.active = true)) fun _ _ _ ↦ True := by
      refine Told.call fun s w answer hw _ hallowed ↦ ⟨trivial, ?_⟩
      have hlater := hinv _ _ (DeadlineWatch.later_observe timed rfl hallowed) hw
      cases answer with
      | error e => trivial
      | ok jobs =>
          refine ⟨hlater, fun hactive ↦ ?_⟩
          change (w.answers.active || jobs.any isActiveJob) = true
          rw [hactive, Bool.or_true]
    refine Safe.bind hjobs fun jobs ↦ Safe.ret fun _ w h ↦ ⟨h.1, fun hany ↦ ⟨h.2 ?_, hrefused⟩⟩
    obtain ⟨job, hjob, hactive⟩ := List.any_eq_true.mp hany
    exact List.any_eq_true.mpr ⟨job, hjob, (Bool.and_eq_true_iff.mp hactive).1⟩
  · exact Safe.ret fun _ _ h ↦ ⟨h, fun hfalse ↦ by cases hfalse⟩

/-- A retry that succeeded is spent. -/
theorem spent_of_succeeded {counts : List (String × ℕ)} {jobs : List Job}
    {answers : List (Job × Except PyError Job)} (hjobs : answers.map Prod.fst = jobs)
    (hnames : ∀ job ∈ jobs, job.name ∈ names)
    (hbelow : ∀ job ∈ jobs, countOf counts job.name < settings.jobRetryCount)
    (hsucceeded : succeeded answers ≠ []) :
    ∃ name ∈ names, countOf counts name < settings.jobRetryCount ∧
      countOf counts name < countOf (tallyRetryResults answers counts) name := by
  obtain ⟨job, hjob⟩ := List.exists_mem_of_ne_nil _ hsucceeded
  have hmem : job ∈ jobs := by
    obtain ⟨entry, hentry, hsome⟩ := List.mem_filterMap.mp hjob
    obtain ⟨retried, -, hjob⟩ := Option.map_eq_some_iff.mp hsome
    exact hjobs ▸ hjob ▸ List.mem_map_of_mem hentry
  refine ⟨job.name, hnames job hmem, hbelow job hmem, ?_⟩
  rw [countOf_tallyRetryResults, if_pos (List.mem_map_of_mem hjob)]
  exact Nat.lt_succ_self _

theorem retryErrors_eq_nil_of_head {answers : List (Job × Except PyError Job)}
    (h : (retryErrors answers).head? = none) (hanswers : answers ≠ []) :
    succeeded answers ≠ [] := by
  have herrors : retryErrors answers = [] := List.head?_eq_none_iff.mp h
  cases answers with
  | nil => exact absurd rfl hanswers
  | cons entry answers =>
      obtain ⟨job, answer⟩ := entry
      cases answer with
      | error e => simp [retryErrors] at herrors
      | ok retried => simp [succeeded, Except.toOption]

theorem keeps_idle_persistRetries (mrIid : ℕ) (updated : List (String × ℕ))
    (answers : List (Job × Except PyError Job)) :
    (persistRetries settings mrIid updated answers).Keeps (fun op ↦ op.idle = true)
      fun _ ↦ True := by
  unfold persistRetries
  split_ifs
  · exact Keeps.ret ()
  · exact keeps_updateMrState (K := fun _ ↦ True) rfl

theorem told_handleRetryApiFailures (hinv : Patient timed inv) (mrIid : ℕ) (pipeline : Pipeline)
    {counts : List (String × ℕ)} {jobs : List Job} {answers : List (Job × Except PyError Job)}
    (hjobs : answers.map Prod.fst = jobs) (hnames : ∀ job ∈ jobs, job.name ∈ names)
    (hbelow : ∀ job ∈ jobs, countOf counts job.name < settings.jobRetryCount) (first : PyError)
    (herrors : retryErrors answers ≠ []) {a : RetryAnswers} (hclean : a.succeeded = false)
    (hfresh : a.failed = false) :
    (handleRetryApiFailures settings mrIid pipeline (tallyRetryResults answers counts) answers
      first).Told (deadlineObserver names timed)
      (fun _ w ↦ inv w ∧ w.answers = noteAnswers a answers)
      (fun signal _ w ↦ inv w ∧ ∀ x ∈ signal, Signalled settings names timed counts x w)
      fun _ _ _ ↦ True := by
  -- What was answered stays on record while the jobs are read again.
  have hsteady : Steady timed fun w ↦ inv w ∧
      w.answers.succeeded = (noteAnswers a answers).succeeded ∧
      w.answers.refused = (noteAnswers a answers).refused ∧
      w.answers.failed = (noteAnswers a answers).failed := fun w w' hlater h ↦
    ⟨hinv w w' hlater.clock h.1, hlater.succeeded.trans h.2.1, hlater.refused.trans h.2.2.1,
      hlater.failed.trans h.2.2.2⟩
  refine Safe.bind ((told_retriedExternally hsteady pipeline.id (retryErrors answers)).mono
    (fun _ _ h ↦ ⟨h.1, h.2 ▸ rfl, h.2 ▸ rfl, h.2 ▸ rfl⟩) (fun _ _ _ h ↦ h) fun _ _ _ h ↦ h)
    fun external ↦ ?_
  split_ifs with hexternal
  · have hmoved : Steady timed fun w ↦ inv w ∧ (w.answers.external = true ∨
        succeeded answers ≠ []) := fun w w' hlater h ↦
      ⟨hinv w w' hlater.clock h.1, h.2.imp_left (DeadlineWatch.external_later timed hlater)⟩
    refine Safe.bind ((told_now hmoved).mono ?_ (fun _ _ _ h ↦ h) fun _ _ _ h ↦ h) fun now ↦
      Safe.ret fun _ w h ↦ ⟨h.1.1, ?_⟩
    · rintro _ w ⟨⟨hw, hsucceeded, hrefused, hfailed⟩, hactive⟩
      refine ⟨hw, or_iff_not_imp_right.mpr fun hnone ↦ ?_⟩
      obtain ⟨hactive, hall⟩ := hactive hexternal
      obtain ⟨h₁, h₂, h₃⟩ := noteAnswers_refused (a := a) (not_not.mp hnone) hall
      have hsome : (retryErrors answers).isEmpty = false := by simpa using herrors
      simp [RetryAnswers.external, hsucceeded, hrefused, hfailed, hactive, h₁, h₂, h₃, hclean,
        hfresh, hsome]
    · rintro signal ⟨rfl⟩
      refine ⟨le_countOf_tallyRetryResults answers counts, ?_⟩
      rintro t ⟨rfl⟩
      exact ⟨fun _ ↦ h.2.ge, h.1.2.imp_right (spent_of_succeeded hjobs hnames hbelow)⟩
  · have hends : (persistRetries settings mrIid (tallyRetryResults answers counts) answers >>=
        fun _ ↦ MRStateMachine.triggerPipelineFailed settings
          ((retryErrors answers).map fun entry ↦ entry.1.name) (tallyRetryResults answers counts)
          ("Failed to retry jobs via API: " ++ first.text) >>=
        fun _ ↦ pure (none : Option RetrySignal)).Asks (fun _ _ ↦ True) (fun _ op ↦ op.idle = true)
        (fun _ ↦ True) (fun out _ ↦ out = none) fun _ _ ↦ True := by
      refine Asks.bind (keeps_idle_persistRetries mrIid _ _) fun _ ↦ ?_
      exact Asks.bind ((MRStateMachine.keeps_triggerPipelineFailed enters_settles _ _ _).mono
        fun _ ↦ Op.idle_of_settles) fun _ ↦ Asks.ret fun _ _ ↦ rfl
    refine (told_of_idle hinv.steady hends).mono (fun _ _ h ↦ h.1.1) ?_ fun _ _ _ h ↦ h
    rintro out _ w ⟨rfl, hw⟩
    exact ⟨hw, fun x hx ↦ by cases hx⟩

theorem told_dispatchJobRetries (hinv : Patient timed inv) (mrIid : ℕ) (pipeline : Pipeline)
    {jobs : List Job} {counts : List (String × ℕ)} (hsome : jobs ≠ [])
    (hnames : ∀ job ∈ jobs, job.name ∈ names)
    (hbelow : ∀ job ∈ jobs, countOf counts job.name < settings.jobRetryCount) :
    (dispatchJobRetries settings mrIid pipeline jobs counts settings.jobRetryCount).Told
      (deadlineObserver names timed) (fun _ w ↦ inv w ∧ w.Clean)
      (fun signal _ w ↦ inv w ∧ ∀ x ∈ signal, Signalled settings names timed counts x w)
      fun _ _ _ ↦ True := by
  rintro s w₀ ⟨hw₀, hclean⟩
  refine Safe.bind (told_retryJobs hinv w₀.answers jobs) (fun answers ↦ ?_) s w₀ ⟨hw₀, rfl⟩
  by_cases hjobs : answers.map Prod.fst = jobs
  · simp only
    split
    · next first hfirst =>
        refine (told_handleRetryApiFailures hinv mrIid pipeline hjobs hnames hbelow first ?_
          hclean.succeeded hclean.failed).mono (fun _ _ h ↦ ⟨h.1, h.2.2⟩) (fun _ _ _ h ↦ h)
          fun _ _ _ h ↦ h
        intro hnil
        rw [hnil] at hfirst
        cases hfirst
    · next hnone =>
        have hspent := spent_of_succeeded hjobs hnames hbelow
          (retryErrors_eq_nil_of_head hnone fun hnil ↦ hsome (by rw [← hjobs, hnil]; rfl))
        refine Safe.bind ((told_of_keeps_idle hinv.steady
          (keeps_updateMrState (K := fun _ ↦ True) rfl)).mono (fun _ _ h ↦ h.1)
          (fun _ _ _ h ↦ h) fun _ _ _ h ↦ h) fun _ ↦ ?_
        have hurl := (Leaves.mono (MRNotifier.tends_buildPipelineUrl
          pipeline.id) fun _ hop ↦ Op.idle_of_settles (Op.settles_of_tends hop)).keeps
            fun _ ↦ True
        refine Safe.bind (told_of_keeps_idle hinv.steady hurl) fun _ ↦ ?_
        refine Safe.bind (told_of_keeps_idle hinv.steady
          ((MRStateMachine.keeps_notifyJobRetry enters_settles _ _ _ _ _).mono
            fun _ ↦ Op.idle_of_settles))
          fun _ ↦ ?_
        refine Safe.bind (told_now hinv.steady) fun now ↦ Safe.ret fun _ w h ↦ ⟨h.1, ?_⟩
        rintro signal ⟨rfl⟩
        refine ⟨le_countOf_tallyRetryResults answers counts, ?_⟩
        rintro t ⟨rfl⟩
        exact ⟨fun _ ↦ h.2.ge, Or.inr hspent⟩
  · exact fun _ _ h ↦ absurd h.2.1 hjobs

/-- The jobs of the pipeline have the names that are known. -/
theorem told_fetchPipelineJobs (hinv : Patient timed inv) (pipeline : Pipeline)
    (counts : List (String × ℕ)) :
    (fetchPipelineJobs settings pipeline counts).Told (deadlineObserver names timed)
      (fun _ w ↦ inv w ∧ w.Clean)
      (fun jobs _ w ↦ (inv w ∧ w.Clean) ∧ ∀ job ∈ jobs.getD [], job.name ∈ names)
      fun _ _ _ ↦ True := by
  have hsteady := DeadlineWatch.steady_clean timed hinv
  have hjobs : (Prog.gitlab (.getPipelineJobs pipeline.id)).Told (deadlineObserver names timed)
      (fun _ w ↦ inv w ∧ w.Clean)
      (fun jobs _ w ↦ (inv w ∧ w.Clean) ∧ ∀ job ∈ (jobs : List Job), job.name ∈ names)
      fun _ _ w ↦ inv w ∧ w.Clean := by
    refine Told.call fun s w answer hw _ hallowed ↦ ⟨trivial, ?_⟩
    have hlater := hsteady _ _ (DeadlineWatch.later_observe timed rfl hallowed) hw
    cases answer with
    | error e => exact hlater
    | ok jobs => exact ⟨hlater, hallowed⟩
  have hfetched : (catching PyError.isException
      (do
        let jobs : List Job ← Prog.gitlab (.getPipelineJobs pipeline.id)
        return (.ok jobs : Except PyError (List Job)))
      fun e ↦ pure (.error e)).Told (deadlineObserver names timed) (fun _ w ↦ inv w ∧ w.Clean)
      (fun fetched _ w ↦ (inv w ∧ w.Clean) ∧
        ∀ jobs, fetched = .ok jobs → ∀ job ∈ jobs, job.name ∈ names) fun _ _ _ ↦ True := by
    refine Safe.handle (Safe.bind hjobs fun jobs ↦ Safe.ret fun _ w h ↦ ⟨h.1, ?_⟩) fun e ↦ ?_
    · rintro _ ⟨rfl⟩
      exact h.2
    · split_ifs
      · exact Safe.ret fun _ _ h ↦ ⟨h, fun _ hok ↦ by cases hok⟩
      · exact Safe.throw fun _ _ _ ↦ trivial
  have hfails (message : String) : (MRStateMachine.triggerPipelineFailed settings [] counts
      message).Told (deadlineObserver names timed) (fun _ w ↦ inv w ∧ w.Clean)
      (fun _ _ w ↦ inv w ∧ w.Clean) fun _ _ _ ↦ True :=
    told_of_keeps_idle hsteady
      ((MRStateMachine.keeps_triggerPipelineFailed enters_settles _ _ _).mono
        fun _ ↦ Op.idle_of_settles)
  refine Safe.bind hfetched fun fetched ↦ ?_
  cases fetched with
  | error e =>
      refine Safe.bind ((hfails _).mono (fun _ _ h ↦ h.1) (fun _ _ _ h ↦ h) fun _ _ _ h ↦ h)
        fun _ ↦ Safe.ret fun _ _ h ↦ ⟨h, fun _ hjob ↦ by cases hjob⟩
  | ok jobs =>
      simp only
      split_ifs
      · refine Safe.bind ((hfails _).mono (fun _ _ h ↦ h.1) (fun _ _ _ h ↦ h) fun _ _ _ h ↦ h)
          fun _ ↦ Safe.ret fun _ _ h ↦ ⟨h, fun _ hjob ↦ by cases hjob⟩
      · exact Safe.ret fun _ _ h ↦ ⟨h.1, h.2 jobs rfl⟩

/-- Where no name is exhausted, all failed jobs are retried. -/
theorem classifyFailedJobs_of_nil {failedJobs : List Job} {counts : List (String × ℕ)} {limit : ℕ}
    (h : (classifyFailedJobs failedJobs counts limit).2 = []) :
    (classifyFailedJobs failedJobs counts limit).1 = failedJobs ∧
      ∀ job ∈ failedJobs, countOf counts job.name < limit := by
  unfold classifyFailedJobs at h ⊢
  rw [List.partition_eq_filter_filter] at h ⊢
  have hbelow : ∀ job ∈ failedJobs, countOf counts job.name < limit := by
    intro job hjob
    have hnone := List.filter_eq_nil_iff.mp (List.map_eq_nil_iff.mp h) job hjob
    simpa using hnone
  exact ⟨List.filter_eq_self.mpr fun job hjob ↦ decide_eq_true (hbelow job hjob), hbelow⟩

theorem told_handlePipelineFailureRetry (hinv : Patient timed inv) (mrIid : ℕ)
    (pipeline : Pipeline) (counts : List (String × ℕ)) :
    (handlePipelineFailureRetry settings mrIid pipeline counts).Told
      (deadlineObserver names timed) (fun _ w ↦ inv w ∧ w.Clean)
      (fun signal _ w ↦ inv w ∧ ∀ x ∈ signal, Signalled settings names timed counts x w)
      fun _ _ _ ↦ True := by
  have hends {p : Prog Unit} (h : p.Keeps (fun op ↦ op.settles = true) fun _ ↦ True)
      {pre : Local → DeadlineWatch → Prop} (hpre : ∀ s w, pre s w → inv w) :
      (p >>= fun _ ↦ pure (none : Option RetrySignal)).Told (deadlineObserver names timed) pre
        (fun signal _ w ↦ inv w ∧ ∀ x ∈ signal, Signalled settings names timed counts x w)
        fun _ _ _ ↦ True :=
    Safe.bind ((told_of_keeps_idle hinv.steady (h.mono fun _ ↦ Op.idle_of_settles)).mono hpre
      (fun _ _ _ h ↦ h) fun _ _ _ h ↦ h) fun _ ↦ Safe.ret fun _ _ h ↦ ⟨h, fun _ hx ↦ by cases hx⟩
  refine Safe.bind (told_fetchPipelineJobs hinv pipeline counts) fun fetched ↦ ?_
  cases fetched with
  | none => exact Safe.ret fun _ _ h ↦ ⟨h.1.1, fun _ hx ↦ by cases hx⟩
  | some jobs =>
      rintro s w ⟨hw, hnames⟩
      have hnames : ∀ job ∈ jobs, job.name ∈ names := hnames
      revert s w hw
      simp only
      split_ifs with hnone hexhausted
      · unfold handleNoFailedJobs
        split_ifs
        · refine fun s w hw ↦ ⟨hw.1, ?_⟩
          rintro x ⟨rfl⟩
          exact ⟨fun _ ↦ le_rfl, fun t ht ↦ by cases ht⟩
        · exact hends (MRStateMachine.keeps_triggerPipelineFailed enters_settles _ _ _)
            fun _ _ h ↦ h.1
      · have hexhausted : (classifyFailedJobs (jobs.filter fun job ↦ job.status = .failed) counts
            settings.jobRetryCount).2 = [] := List.isEmpty_iff.mp hexhausted
        obtain ⟨hall, hbelow⟩ := classifyFailedJobs_of_nil hexhausted
        rw [hall]
        refine told_dispatchJobRetries hinv mrIid pipeline ?_ (fun job hjob ↦ ?_) hbelow
        · exact fun hnil ↦ hnone (List.isEmpty_iff.mpr hnil)
        · exact hnames job (List.mem_of_mem_filter hjob)
      · exact hends (MRStateMachine.keeps_triggerPipelineFailed enters_settles _ _ _)
          fun _ _ h ↦ h.1

theorem told_handlePipelineFailure (hinv : Patient timed inv) (mrIid : ℕ) (pipeline : Pipeline)
    (counts : List (String × ℕ)) :
    (handlePipelineFailure settings mrIid pipeline counts).Told (deadlineObserver names timed)
      (fun _ w ↦ inv w ∧ w.Clean)
      (fun status _ w ↦ inv w ∧
        ∀ signal, status = .retry signal → Signalled settings names timed counts signal w)
      fun _ _ _ ↦ True := by
  refine Safe.bind (told_idle (DeadlineWatch.steady_clean timed hinv) rfl) fun item ↦ ?_
  refine Safe.bind (told_handlePipelineFailureRetry hinv mrIid pipeline _) fun signal ↦ ?_
  cases signal with
  | none => exact Safe.ret fun _ _ h ↦ ⟨h.1, fun _ hretry ↦ by cases hretry⟩
  | some signal =>
      refine Safe.ret fun _ w h ↦ ⟨h.1, ?_⟩
      rintro _ ⟨rfl⟩
      -- The counts of the row are taken in before the retries.
      have hsync := le_countOf_syncCounts ((item.map QueueItem.retriedJobs).getD []) counts
      obtain ⟨hgrown, hstart⟩ := h.2 signal rfl
      refine ⟨fun job ↦ (hsync job).trans (hgrown job), fun t ht ↦ ?_⟩
      obtain ⟨htime, hmoved⟩ := hstart t ht
      refine ⟨htime, hmoved.imp_right ?_⟩
      rintro ⟨name, hname, hbelow, hmore⟩
      exact ⟨name, hname, (hsync name).trans_lt hbelow, (hsync name).trans_lt hmore⟩

theorem told_trySwitchToReplacementPipeline (hinv : Steady timed inv) (mrIid : ℕ)
    (pipeline : Pipeline) :
    (trySwitchToReplacementPipeline settings mrIid pipeline).Told (deadlineObserver names timed)
      (fun _ ↦ inv) (fun _ _ ↦ inv) fun _ _ _ ↦ True := by
  refine Safe.bind (told_idle hinv rfl) fun item ↦ ?_
  split
  · exact Safe.ret fun _ _ h ↦ h
  · refine Safe.bind (told_idle hinv rfl) fun pipelines ↦ ?_
    split
    · exact Safe.ret fun _ _ h ↦ h
    · exact Safe.bind (told_adopt (by simp)) fun _ _ _ h ↦ h.elim

/-- Only a failed pipeline is retried. -/
theorem told_handlePipelineStatus (hinv : Patient timed inv) (mrIid : ℕ) (pipeline : Pipeline)
    (counts : List (String × ℕ)) :
    (handlePipelineStatus settings mrIid pipeline counts).Told (deadlineObserver names timed)
      (fun _ w ↦ inv w ∧ w.Clean)
      (fun status _ w ↦ (status = .wait → inv w) ∧
        ∀ signal, status = .retry signal →
          inv w ∧ Signalled settings names timed counts signal w)
      fun _ _ _ ↦ True := by
  have hends {α : Type} (p : Prog α) (result : ProcessingResult)
      {pre : Local → DeadlineWatch → Prop} :
      (p >>= fun _ ↦ pure (StatusResult.result result)).Told (deadlineObserver names timed) pre
        (fun status _ w ↦ (status = .wait → inv w) ∧
          ∀ signal, status = .retry signal →
            inv w ∧ Signalled settings names timed counts signal w) fun _ _ _ ↦ True :=
    Safe.bind (told_ending.mono (fun _ _ _ ↦ trivial) (fun _ _ _ h ↦ h) fun _ _ _ h ↦ h) fun _ ↦
      Safe.ret fun _ _ _ ↦ ⟨(nomatch ·), fun _ hretry ↦ by cases hretry⟩
  have hwaits {pre : Local → DeadlineWatch → Prop} (hpre : ∀ s w, pre s w → inv w) :
      (pure StatusResult.wait : Prog StatusResult).Told (deadlineObserver names timed) pre
        (fun status _ w ↦ (status = .wait → inv w) ∧
          ∀ signal, status = .retry signal →
            inv w ∧ Signalled settings names timed counts signal w) fun _ _ _ ↦ True :=
    Safe.ret fun s w h ↦ ⟨fun _ ↦ hpre s w h, fun _ hretry ↦ by cases hretry⟩
  unfold handlePipelineStatus
  split
  · refine Safe.bind ((told_idle hinv.steady rfl).mono (fun _ _ h ↦ h.1) (fun _ _ _ h ↦ h)
      fun _ _ _ h ↦ h) fun item ↦ ?_
    split_ifs
    · exact hwaits fun _ _ h ↦ h
    · exact hends (MRStateMachine.triggerPipelineSuccess settings) _
  · refine Safe.bind ((told_trySwitchToReplacementPipeline hinv.steady mrIid pipeline).mono
      (fun _ _ h ↦ h.1) (fun _ _ _ h ↦ h) fun _ _ _ h ↦ h) fun switched ↦ ?_
    split_ifs
    · exact hwaits fun _ _ h ↦ h
    · exact Safe.bind (told_ending.mono (fun _ _ _ ↦ trivial) (fun _ _ _ h ↦ h) fun _ _ _ h ↦ h)
        fun failedJobs ↦ hends _ _
  · refine (told_handlePipelineFailure hinv mrIid pipeline counts).mono (fun _ _ h ↦ h) ?_
      fun _ _ _ h ↦ h
    exact fun status _ w h ↦ ⟨fun _ ↦ h.1, fun signal hretry ↦ ⟨h.1, h.2 signal hretry⟩⟩
  · split
    · exact hwaits fun _ _ h ↦ h.1
    · exact hends _ _

/-! ## The state of the loop -/

/-- The loop has kept its start, its counts and, where it was used, its last chance. -/
structure SameWait (st₀ st : PipelineWaitState) : Prop where
  start : st.startTime = st₀.startTime
  counts : st.retriedJobs = st₀.retriedJobs
  reprieved : st₀.timeoutLastChanceUsed = true → st.timeoutLastChanceUsed = true

/-- The deadline was looked at, and has passed only where the last chance was used. -/
def InTime (settings : Settings) (timed : Bool) (st₀ : PipelineWaitState) (w₀ : DeadlineWatch)
    (used : Bool) (w : DeadlineWatch) : Prop :=
  timed = true → ∃ now, w₀.clock ≤ now ∧ now ≤ w.clock ∧
    (settings.pipelineTimeoutSeconds * 1000000 < now - st₀.startTime →
      st₀.timeoutLastChanceUsed = false ∧ used = true)

theorem patient_inTime (st₀ : PipelineWaitState) (w₀ : DeadlineWatch) (used : Bool) :
    Patient timed (InTime settings timed st₀ w₀ used) := by
  intro w w' hclock h htimed
  obtain ⟨now, hnow, hlater, hexpired⟩ := h htimed
  exact ⟨now, hnow, hlater.trans (hclock htimed), hexpired⟩

/-- What a poll has done to the loop before it sleeps. -/
structure Polled (settings : Settings) (names : Finset String) (timed : Bool)
    (st₀ : PipelineWaitState) (w₀ : DeadlineWatch) (st : PipelineWaitState) (w : DeadlineWatch) :
    Prop where
  reprieved : st₀.timeoutLastChanceUsed = true → st.timeoutLastChanceUsed = true
  time : InTime settings timed st₀ w₀ st.timeoutLastChanceUsed w
  started : timed = true → st₀.startTime ≤ w₀.clock → st.startTime ≤ w.clock
  spent : spent names settings.jobRetryCount st₀.retriedJobs ≤
    spent names settings.jobRetryCount st.retriedJobs
  moved : st.startTime ≠ st₀.startTime → w.answers.external = true ∨
    MergeQueue.spent names settings.jobRetryCount st₀.retriedJobs <
      MergeQueue.spent names settings.jobRetryCount st.retriedJobs

theorem polled_of_same {st₀ st : PipelineWaitState} {w₀ w : DeadlineWatch}
    (hsame : SameWait st₀ st) (htime : InTime settings timed st₀ w₀ st.timeoutLastChanceUsed w) :
    Polled settings names timed st₀ w₀ st w := by
  refine ⟨hsame.reprieved, htime, fun htimed hstart ↦ ?_, by rw [hsame.counts],
    fun hmoved ↦ absurd hsame.start hmoved⟩
  obtain ⟨now, hnow, hlater, -⟩ := htime htimed
  rw [hsame.start]
  omega

theorem polled_of_signal {st₀ st : PipelineWaitState} {w₀ w : DeadlineWatch}
    {signal : RetrySignal} (hsame : SameWait st₀ st)
    (htime : InTime settings timed st₀ w₀ st.timeoutLastChanceUsed w)
    (hsignal : Signalled settings names timed st.retriedJobs signal w) :
    Polled settings names timed st₀ w₀
      { st with
        retriedJobs := signal.retriedJobs
        startTime := signal.newStartTime.getD st.startTime } w := by
  obtain ⟨hgrown, hstart⟩ := hsignal
  have hspent := spent_mono names settings.jobRetryCount hgrown
  rw [hsame.counts] at hspent
  cases hnew : signal.newStartTime with
  | none =>
      have hpolled : Polled settings names timed st₀ w₀ st w := polled_of_same hsame htime
      exact ⟨hpolled.reprieved, hpolled.time, hpolled.started, hspent,
        fun hmoved ↦ absurd hsame.start hmoved⟩
  | some t =>
      obtain ⟨hclock, hmoved⟩ := hstart t hnew
      refine ⟨hsame.reprieved, htime, fun htimed _ ↦ hclock htimed, hspent, fun _ ↦ ?_⟩
      refine hmoved.imp_right fun hmore ↦ ?_
      obtain ⟨name, hname, hbelow, hmore⟩ := hmore
      rw [← hsame.counts]
      exact spent_lt hgrown hname hbelow hmore

/-- What is known of a poll that has come to this point of the loop. -/
def Ongoing (settings : Settings) (timed : Bool) (st₀ : PipelineWaitState) (w₀ : DeadlineWatch)
    (st : PipelineWaitState) (w : DeadlineWatch) : Prop :=
  SameWait st₀ st ∧ InTime settings timed st₀ w₀ st.timeoutLastChanceUsed w ∧ w.Clean

theorem steady_ongoing (st₀ st : PipelineWaitState) (w₀ : DeadlineWatch) :
    Steady timed (Ongoing settings timed st₀ w₀ st) := fun w w' hlater h ↦
  ⟨h.1, patient_inTime st₀ w₀ _ w w' hlater.clock h.2.1, h.2.2.later timed hlater⟩

theorem Ongoing.of_same {st₀ st st' : PipelineWaitState} {w₀ w : DeadlineWatch}
    (h : Ongoing settings timed st₀ w₀ st w) (hstart : st'.startTime = st.startTime)
    (hcounts : st'.retriedJobs = st.retriedJobs)
    (hused : st'.timeoutLastChanceUsed = st.timeoutLastChanceUsed) :
    Ongoing settings timed st₀ w₀ st' w :=
  ⟨⟨hstart.trans h.1.start, hcounts.trans h.1.counts,
    fun hused₀ ↦ hused.trans (h.1.reprieved hused₀)⟩, hused.symm ▸ h.2.1, h.2.2⟩

theorem told_followPipeline (mrIid : ℕ) (pipeline : Pipeline) (st₀ st : PipelineWaitState)
    (w₀ : DeadlineWatch) :
    (followPipeline settings mrIid pipeline st).Told (deadlineObserver names timed)
      (fun _ ↦ Ongoing settings timed st₀ w₀ st)
      (fun out _ w ↦ out.2 = none → Polled settings names timed st₀ w₀ out.1 w)
      fun _ _ _ ↦ True := by
  obtain ⟨hstart, hcounts, hused⟩ : (applyCanceledGracePeriod st pipeline).1.startTime =
      st.startTime ∧ (applyCanceledGracePeriod st pipeline).1.retriedJobs = st.retriedJobs ∧
      (applyCanceledGracePeriod st pipeline).1.timeoutLastChanceUsed =
        st.timeoutLastChanceUsed := by
    unfold applyCanceledGracePeriod
    split_ifs <;> exact ⟨rfl, rfl, rfl⟩
  unfold followPipeline
  generalize applyCanceledGracePeriod st pipeline = graced at hstart hcounts hused ⊢
  obtain ⟨st', grace⟩ := graced
  have hongoing : ∀ w, Ongoing settings timed st₀ w₀ st w → Ongoing settings timed st₀ w₀ st' w :=
    fun w h ↦ h.of_same hstart hcounts hused
  by_cases hsame : SameWait st₀ st'
  · simp only
    split_ifs
    · exact Safe.ret fun _ w h _ ↦ polled_of_same hsame (hongoing w h).2.1
    · refine Safe.bind ((told_handlePipelineStatus
        (patient_inTime st₀ w₀ st'.timeoutLastChanceUsed) mrIid pipeline st'.retriedJobs).mono
        (fun _ w h ↦ (hongoing w h).2) (fun _ _ _ h ↦ h) fun _ _ _ h ↦ h) fun status ↦ ?_
      cases status with
      | wait => exact Safe.ret fun _ _ h _ ↦ polled_of_same hsame (h.1 rfl)
      | result result => exact Safe.ret fun _ _ _ hnone ↦ by cases hnone
      | retry signal =>
          refine Safe.ret fun _ _ h _ ↦ ?_
          obtain ⟨htime, hsignal⟩ := h.2 signal rfl
          exact polled_of_signal hsame htime hsignal
  · exact fun _ w h ↦ absurd (hongoing w h).1 hsame

/-- No other pipeline is adopted. -/
theorem told_tryRecoverFromStaleSkip (hinv : Steady timed inv) (mrIid : ℕ) (pipeline : Pipeline)
    (st : PipelineWaitState) :
    (tryRecoverFromStaleSkip settings mrIid pipeline st).Told (deadlineObserver names timed)
      (fun _ ↦ inv) (fun out _ w ↦ out = st ∧ inv w) fun _ _ _ ↦ True := by
  refine Safe.bind (told_idle hinv rfl) fun item ↦ ?_
  split
  · exact Safe.ret fun _ _ h ↦ ⟨rfl, h⟩
  · refine Safe.bind (told_idle hinv rfl) fun tracked ↦ ?_
    split_ifs
    · exact Safe.bind (told_adopt (by simp)) fun _ _ _ h ↦ h.elim
    · exact Safe.ret fun _ _ h ↦ ⟨rfl, h⟩

end Deadline

/-! ## Rebase checks -/

namespace Deadline

open RebaseCoordinator

variable {settings : Settings} {names : Finset String} {timed : Bool}
  {inv : DeadlineWatch → Prop}

/-- A check that rebases nothing leaves the context as it is. -/
theorem told_handleRebaseIfNeeded (hinv : Steady timed inv) (mrIid : ℕ)
    (ctx : RebaseDuringTestingContext) :
    (RebaseDuringTestingHandler.handleRebaseIfNeeded settings mrIid ctx).Told
      (deadlineObserver names timed) (fun _ ↦ inv) (fun out _ w ↦ out = (ctx, none) ∧ inv w)
      fun _ _ _ ↦ True := by
  have hcheck : (RebaseDuringTestingHandler.checkNeedsRebase mrIid).Told
      (deadlineObserver names timed) (fun _ ↦ inv) (fun _ _ ↦ inv) fun _ _ _ ↦ True := by
    refine Safe.bind (told_idle hinv rfl) fun mr ↦ ?_
    split_ifs
    · exact Safe.ret fun _ _ h ↦ h
    · exact Safe.ret fun _ _ h ↦ h
    · exact Safe.ret fun _ _ h ↦ h
  have hrebase : (Prog.gitlab (.rebaseMr mrIid)).Told (deadlineObserver names timed)
      (fun _ _ ↦ True) (fun _ _ _ ↦ False) fun _ _ _ ↦ True :=
    Told.call fun _ _ _ _ _ hallowed ↦ absurd hallowed id
  refine Safe.bind hcheck fun readiness ↦ ?_
  cases readiness with
  | ready => exact Safe.ret fun _ _ h ↦ ⟨rfl, h⟩
  | hasConflicts => exact Safe.throw fun _ _ _ ↦ trivial
  | needsRebase =>
      simp only
      split_ifs
      · exact Safe.throw fun _ _ _ ↦ trivial
      · refine Safe.bind (told_ending.mono (fun _ _ _ ↦ trivial) (fun _ _ _ h ↦ h)
          fun _ _ _ h ↦ h) fun _ ↦ ?_
        refine Safe.bind (told_ending.mono (fun _ _ _ ↦ trivial) (fun _ _ _ h ↦ h)
          fun _ _ _ h ↦ h) fun mr ↦ ?_
        exact Safe.bind hrebase fun _ _ _ h ↦ h.elim

theorem told_checkAndHandleRebaseDuringTesting (hinv : Steady timed inv) (mrIid : ℕ)
    (state : PipelineWaitState) (pipeline : Pipeline) :
    (checkAndHandleRebaseDuringTesting settings mrIid state pipeline).Told
      (deadlineObserver names timed) (fun _ ↦ inv)
      (fun out _ w ↦ (out = .unchanged ∧ inv w) ∨ ∃ result, out = .result result)
      fun _ _ _ ↦ True := by
  have hattempt : (attemptRebase settings mrIid state pipeline).Told
      (deadlineObserver names timed) (fun _ ↦ inv) (fun out _ w ↦ out = .unchanged ∧ inv w)
      fun _ _ _ ↦ True := by
    refine Safe.bind (told_handleRebaseIfNeeded hinv mrIid state.rebaseCtx) fun out ↦ ?_
    rintro s w ⟨rfl, hw⟩
    simp only [lt_self_iff_false, if_false]
    exact ⟨rfl, hw⟩
  have hfail (e : PyError) : (failRebase settings mrIid state e).Told
      (deadlineObserver names timed) (fun _ _ ↦ True) (fun out _ _ ↦ ∃ result, out = .result result)
      fun _ _ _ ↦ True := by
    have hasks : (failRebase settings mrIid state e).Asks (fun _ _ ↦ True)
        (fun _ op ↦ op.idle = true) (fun _ ↦ True) (fun out _ ↦ ∃ result, out = .result result)
        fun _ _ ↦ True :=
      asks_failRebase (fun _ hop ↦ Op.idle_of_settles hop) rfl state e
    exact (told_of_idle (fun _ _ _ h ↦ h) hasks).mono (fun _ _ h ↦ h) (fun _ _ _ h ↦ h.1)
      fun _ _ _ h ↦ h
  refine Safe.handle (hattempt.mono (fun _ _ h ↦ h) (fun _ _ _ h ↦ Or.inl h) fun _ _ _ h ↦ h)
    fun e ↦ ?_
  exact (hfail e).mono (fun _ _ h ↦ h) (fun _ _ _ h ↦ Or.inr h) fun _ _ _ h ↦ h

theorem told_maybeRebaseDuringTesting (hinv : Steady timed inv) (mrIid : ℕ)
    (state : PipelineWaitState) (pipeline : Pipeline) :
    (maybeRebaseDuringTesting settings mrIid state pipeline).Told (deadlineObserver names timed)
      (fun _ ↦ inv)
      (fun outcome _ w ↦ outcome.result = none → outcome.shouldReset = false ∧ inv w)
      fun _ _ _ ↦ True := by
  refine Safe.bind (told_now hinv) fun now ↦ ?_
  split_ifs
  · exact Safe.ret fun _ _ h _ ↦ ⟨rfl, h.1⟩
  · refine Safe.bind ((told_checkAndHandleRebaseDuringTesting hinv mrIid state pipeline).mono
      (fun _ _ h ↦ h.1) (fun _ _ _ h ↦ h) fun _ _ _ h ↦ h) fun out ↦ ?_
    cases out with
    | unchanged =>
        refine Safe.ret fun _ _ h _ ↦ ⟨rfl, ?_⟩
        rcases h with ⟨-, hw⟩ | ⟨result, hresult⟩
        · exact hw
        · cases hresult
    | context ctx =>
        rintro s w (⟨hctx, -⟩ | ⟨result, hresult⟩)
        · cases hctx
        · cases hresult
    | result result => exact Safe.ret fun _ _ _ hnone ↦ by cases hnone

end Deadline

/-! ## The loop -/

namespace Deadline

open PipelineHandler

variable {settings : Settings} {names : Finset String} {timed : Bool}

/-- The last chance is given once. -/
theorem told_hasLastChance {inv : DeadlineWatch → Prop} (hinv : Steady timed inv) (mrIid : ℕ)
    (st : PipelineWaitState) :
    (hasLastChance mrIid st).Told (deadlineObserver names timed) (fun _ ↦ inv)
      (fun lastChance _ w ↦ lastChance = true → st.timeoutLastChanceUsed = false ∧ inv w)
      fun _ _ _ ↦ True := by
  unfold hasLastChance
  split_ifs with hused
  · exact Safe.ret fun _ _ _ hchance ↦ by cases hchance
  · refine Safe.bind (told_idle hinv rfl) fun pipeline ↦ Safe.ret fun _ _ h _ ↦ ?_
    exact ⟨Bool.eq_false_iff.mpr hused, h⟩

/-- A poll starts with nothing retried, and looks at the deadline. -/
theorem told_checkPipelineTerminationConditions (mrIid : ℕ) (st₀ : PipelineWaitState)
    (w₀ : DeadlineWatch) :
    (checkPipelineTerminationConditions settings mrIid st₀).Told (deadlineObserver names timed)
      (fun _ w ↦ w = w₀)
      (fun out _ w ↦ out.2 = none → Ongoing settings timed st₀ w₀ out.1 w) fun _ _ _ ↦ True := by
  have hasked : (Prog.await .shutdownRequested).Told (deadlineObserver names timed)
      (fun _ w ↦ w = w₀) (fun _ _ w ↦ w₀.clock = w.clock ∧ w.Clean) fun _ _ _ ↦ True := by
    refine Told.call fun s w answer hw _ _ ↦ ⟨trivial, ?_⟩
    subst hw
    cases answer with
    | error e => trivial
    | ok stopping => exact ⟨rfl, rfl, rfl, rfl⟩
  have hnow : Prog.now.Told (deadlineObserver names timed)
      (fun _ w ↦ w₀.clock = w.clock ∧ w.Clean)
      (fun now _ w ↦ (timed = true → w₀.clock ≤ now ∧ now ≤ w.clock) ∧ w.Clean)
      fun _ _ _ ↦ True := by
    refine Told.call fun s w answer hw _ hallowed ↦ ⟨trivial, ?_⟩
    cases answer with
    | error e => trivial
    | ok now =>
        have hlater : timed = true → w.clock ≤ now := hallowed
        exact ⟨fun htimed ↦ ⟨hw.1 ▸ hlater htimed, le_rfl⟩, hw.2.1, hw.2.2, hw.2.3⟩
  have hends {α : Type} (p : Prog α) (result : ProcessingResult)
      {pre : Local → DeadlineWatch → Prop} :
      (p >>= fun _ ↦ pure (st₀, some result)).Told (deadlineObserver names timed) pre
        (fun out _ w ↦ out.2 = none → Ongoing settings timed st₀ w₀ out.1 w) fun _ _ _ ↦ True :=
    Safe.bind (told_ending.mono (fun _ _ _ ↦ trivial) (fun _ _ _ h ↦ h) fun _ _ _ h ↦ h) fun _ ↦
      Safe.ret fun _ _ _ hnone ↦ by cases hnone
  refine Safe.bind hasked fun stopping ↦ ?_
  split_ifs
  · exact Safe.ret fun _ _ _ hnone ↦ by cases hnone
  · refine Safe.bind hnow fun now ↦ ?_
    split_ifs with hexpired
    · have hsteady : Steady timed fun w ↦
          (timed = true → w₀.clock ≤ now ∧ now ≤ w.clock) ∧ w.Clean := fun w w' hlater h ↦
        ⟨fun htimed ↦ ⟨(h.1 htimed).1, (h.1 htimed).2.trans (hlater.clock htimed)⟩,
          h.2.later timed hlater⟩
      refine Safe.bind (told_hasLastChance hsteady mrIid st₀) fun lastChance ↦ ?_
      split_ifs with hchance
      · refine Safe.ret fun _ w h _ ↦ ?_
        obtain ⟨hunused, htime, hclean⟩ := h hchance
        exact ⟨⟨rfl, rfl, fun _ ↦ rfl⟩, fun htimed ↦ ⟨now, (htime htimed).1, (htime htimed).2,
          fun _ ↦ ⟨hunused, rfl⟩⟩, hclean⟩
      · exact hends (MRStateMachine.triggerTimeout settings _) _
    · have hongoing : ∀ w : DeadlineWatch,
          (timed = true → w₀.clock ≤ now ∧ now ≤ w.clock) ∧ w.Clean →
            Ongoing settings timed st₀ w₀ st₀ w := by
        rintro w ⟨htime, hclean⟩
        refine ⟨⟨rfl, rfl, id⟩, fun htimed ↦
          ⟨now, (htime htimed).1, (htime htimed).2, fun hpassed ↦ ?_⟩, hclean⟩
        have hpassed : expired st₀.startTime now settings.pipelineTimeoutSeconds = true :=
          decide_eq_true hpassed
        exact absurd hpassed hexpired
      refine Safe.bind ((told_of_keeps_idle (steady_ongoing st₀ st₀ w₀)
        (keeps_verifyMrInQueue rfl rfl)).mono (fun _ w h ↦ hongoing w h) (fun _ _ _ h ↦ h)
        fun _ _ _ h ↦ h) fun reason ↦ ?_
      cases reason with
      | some reason => exact hends (MRStateMachine.triggerMarkRemoved settings reason) _
      | none => exact Safe.ret fun _ _ h _ ↦ h

theorem told_processPipeline (mrIid : ℕ) (pipeline : Pipeline) (st₀ st : PipelineWaitState)
    (w₀ : DeadlineWatch) :
    (processPipeline settings mrIid pipeline st).Told (deadlineObserver names timed)
      (fun _ ↦ Ongoing settings timed st₀ w₀ st)
      (fun out _ w ↦ out.2 = none → Polled settings names timed st₀ w₀ out.1 w)
      fun _ _ _ ↦ True := by
  refine Safe.bind (told_maybeRebaseDuringTesting (steady_ongoing st₀ st w₀)
    mrIid _ pipeline) fun outcome ↦ ?_
  have happly : (applyRebaseOutcome settings mrIid
      { st with
        rebaseCtx := { st.rebaseCtx with currentPipelineId := some pipeline.id }
        lastRebaseCheck := outcome.lastCheck } outcome).Told (deadlineObserver names timed)
      (fun _ w ↦ outcome.result = none →
        outcome.shouldReset = false ∧ Ongoing settings timed st₀ w₀ st w)
      (fun out _ w ↦ out.2 = none → Ongoing settings timed st₀ w₀ out.1 w)
      fun _ _ _ ↦ True := by
    obtain ⟨context, result, lastCheck, shouldReset⟩ := outcome
    cases result with
    | some result => exact Safe.ret fun _ _ _ hnone ↦ by cases hnone
    | none =>
        cases context with
        | none => exact Safe.ret fun _ _ h _ ↦ (h rfl).2.of_same rfl rfl rfl
        | some ctx =>
            cases shouldReset with
            | true => exact fun _ _ h ↦ absurd (h rfl).1 (by simp)
            | false => exact Safe.ret fun _ _ h _ ↦ (h rfl).2.of_same rfl rfl rfl
  refine Safe.bind happly fun out ↦ ?_
  obtain ⟨st', ended⟩ := out
  cases ended with
  | some result => exact Safe.ret fun _ _ _ hnone ↦ by cases hnone
  | none =>
      have hsteady : Steady timed (Ongoing settings timed st₀ w₀ st') := steady_ongoing st₀ st' w₀
      have hcheck : (checkStalePipeline settings mrIid pipeline).Told
          (deadlineObserver names timed) (fun _ ↦ Ongoing settings timed st₀ w₀ st')
          (fun _ _ ↦ Ongoing settings timed st₀ w₀ st') fun _ _ _ ↦ True :=
        Safe.bind (told_idle hsteady rfl) fun _ ↦ Safe.ret fun _ _ h ↦ h
      refine Safe.bind (hcheck.mono (fun _ _ h ↦ h rfl) (fun _ _ _ h ↦ h) fun _ _ _ h ↦ h)
        fun verdict ↦ ?_
      cases verdict with
      | skip =>
          refine Safe.bind (told_tryRecoverFromStaleSkip hsteady mrIid pipeline st') fun st'' ↦
            Safe.ret ?_
          rintro _ w ⟨rfl, hongoing⟩ -
          exact polled_of_same hongoing.1 hongoing.2.1
      | switched => exact Safe.bind (told_adopt (by simp)) fun _ _ _ h ↦ h.elim
      | ok => exact told_followPipeline mrIid pipeline st₀ st' w₀

/-- What a poll that the loop goes on after has done. -/
structure Passed (settings : Settings) (names : Finset String) (timed : Bool)
    (st₀ : PipelineWaitState) (w₀ : DeadlineWatch) (st : PipelineWaitState) (w : DeadlineWatch) :
    Prop where
  reprieved : st₀.timeoutLastChanceUsed = true → st.timeoutLastChanceUsed = true
  spent : spent names settings.jobRetryCount st₀.retriedJobs ≤
    spent names settings.jobRetryCount st.retriedJobs
  moved : st.startTime ≠ st₀.startTime → w.answers.external = true ∨
    MergeQueue.spent names settings.jobRetryCount st₀.retriedJobs <
      MergeQueue.spent names settings.jobRetryCount st.retriedJobs
  meets : timed = true → Meets (settings.pipelineTimeoutSeconds * 1000000)
    (settings.pipelinePollIntervalSeconds * 1000000) PipelineWaitState.startTime
    PipelineWaitState.timeoutLastChanceUsed DeadlineWatch.clock st₀ w₀ st w

theorem told_pipelineRound (mrIid : ℕ) (st₀ : PipelineWaitState) (w₀ : DeadlineWatch) :
    (pipelineRound settings mrIid st₀).Told (deadlineObserver names timed) (fun _ w ↦ w = w₀)
      (fun next _ w ↦ match next with
        | .inl st => Passed settings names timed st₀ w₀ st w
        | .inr _ => True) fun _ _ _ ↦ True := by
  have hiteration : (processPipelineIteration settings mrIid st₀).Told
      (deadlineObserver names timed) (fun _ w ↦ w = w₀)
      (fun out _ w ↦ out.2 = none → Polled settings names timed st₀ w₀ out.1 w)
      fun _ _ _ ↦ True := by
    refine Safe.bind (told_checkPipelineTerminationConditions mrIid st₀ w₀) fun out ↦ ?_
    obtain ⟨st, ended⟩ := out
    cases ended with
    | some result => exact Safe.ret fun _ _ _ hnone ↦ by cases hnone
    | none =>
        refine Safe.bind ((told_idle (steady_ongoing st₀ st w₀) rfl).mono (fun _ _ h ↦ h rfl)
          (fun _ _ _ h ↦ h) fun _ _ _ h ↦ h) fun pipeline ↦ ?_
        cases pipeline with
        | none => exact Safe.ret fun _ _ h _ ↦ polled_of_same h.1 h.2.1
        | some pipeline => exact told_processPipeline mrIid pipeline st₀ st w₀
  refine Safe.bind hiteration fun out ↦ ?_
  obtain ⟨st, ended⟩ := out
  cases ended with
  | some result => exact Safe.ret fun _ _ _ ↦ trivial
  | none =>
      have hsleep : (Prog.await (.sleep (.poll settings.pipelinePollIntervalSeconds))).Told
          (deadlineObserver names timed)
          (fun _ w ↦ Polled settings names timed st₀ w₀ st w)
          (fun _ _ w ↦ Passed settings names timed st₀ w₀ st w) fun _ _ _ ↦ True := by
        refine Told.call fun s w answer hw _ _ ↦ ⟨trivial, ?_⟩
        have hslept : (0 : ℤ) ≤ settings.pipelinePollIntervalSeconds * 1000000 := by positivity
        have hpassed : Passed settings names timed st₀ w₀ st
            { w with clock := w.clock + settings.pipelinePollIntervalSeconds * 1000000 } := by
          refine ⟨hw.reprieved, hw.spent, hw.moved, fun htimed ↦ ?_⟩
          obtain ⟨now, hnow, hlater, hexpired⟩ := hw.time htimed
          refine ⟨hw.reprieved, fun hstart ↦ ?_, now, hnow, ?_, hexpired⟩
          · exact (hw.started htimed hstart).trans (Int.le_add_of_nonneg_right hslept)
          · exact Int.add_le_add_right hlater _
        cases answer with
        | error e => trivial
        | ok slept => exact hpassed
      exact Safe.bind (hsleep.mono (fun _ _ h ↦ h rfl) (fun _ _ _ h ↦ h) fun _ _ _ h ↦ h)
        fun _ ↦ Safe.ret fun _ _ h ↦ h

theorem told_initPipelineWaitState (mrIid : ℕ) :
    (initPipelineWaitState settings mrIid).Told (deadlineObserver names timed) (fun _ _ ↦ True)
      (fun st _ w ↦ timed = true → st.startTime ≤ w.clock) fun _ _ _ ↦ True := by
  have htrue : Steady timed fun _ ↦ True := fun _ _ _ h ↦ h
  refine Safe.bind (told_idle htrue rfl) fun item ↦ ?_
  refine Safe.bind (told_now htrue) fun start ↦ ?_
  have hafter : Steady timed fun w ↦ timed = true → start ≤ w.clock := fun w w' hlater h htimed ↦
    (h htimed).trans (hlater.clock htimed)
  refine Safe.bind ((told_now hafter).mono (fun _ _ h _ ↦ h.2.ge) (fun _ _ _ h ↦ h)
    fun _ _ _ h ↦ h) fun _ ↦ Safe.ret fun _ _ h ↦ h.1

/-! ## All polls of a call -/

theorem after_answers (w : DeadlineWatch) (log : List ProgExchange) :
    ((deadlineObserver names timed).after w log).answers =
      log.foldl RetryAnswers.note w.answers := by
  induction log generalizing w with
  | nil => rfl
  | cons e log ih => exact ih (w.observe e)

/-- A poll begins by asking whether to stop. -/
theorem passes_log_cons (mrIid rounds : ℕ) (replies : List (Reply Op Op.Answer PyError))
    (st : PipelineWaitState) (s : Local) :
    ∀ p ∈ passes (pipelineRound settings mrIid) rounds replies st s,
      ∃ answer log, p.log = ⟨.shutdownRequested, answer⟩ :: log := by
  induction rounds generalizing replies st s with
  | zero => exact fun _ hp ↦ by cases hp
  | succ rounds ih =>
      by_cases hpass : ∃ log st' s',
          (pipelineRound settings mrIid st s).converse replies = (log, .done (.ok (.inl st')) s')
      · obtain ⟨log, st', s', hpass⟩ := hpass
        rw [Program.passes_succ hpass]
        intro p hp
        rcases List.mem_cons.mp hp with rfl | hp
        · cases replies with
          | nil => cases hpass
          | cons reply replies => exact ⟨_, _, (congrArg Prod.fst hpass).symm⟩
        · exact ih _ st' s' p hp
      · push Not at hpass
        rw [Program.passes_of_last hpass]
        exact fun _ hp ↦ by cases hp

theorem external_eq {w : DeadlineWatch} {p : Poll}
    (hp : ∃ answer log, p.log = ⟨.shutdownRequested, answer⟩ :: log) :
    ((deadlineObserver names timed).after w p.log).answers.external = p.external := by
  obtain ⟨answer, log, hlog⟩ := hp
  rw [Poll.external, after_answers, hlog]
  rfl

/-- A poll that moves the deadline for retries of its own spends one of them. -/
theorem spent_add_moved_le {st : PipelineWaitState} {w : DeadlineWatch} {polls : List Poll}
    (hsteps : (deadlineObserver names timed).Steps (Passed settings names timed) st w polls)
    (hpolls : ∀ p ∈ polls, ∃ answer log, p.log = ⟨.shutdownRequested, answer⟩ :: log) :
    spent names settings.jobRetryCount st.retriedJobs +
      (polls.countP fun p ↦ p.moved && !p.external) ≤ names.card * settings.jobRetryCount := by
  induction polls generalizing st w with
  | nil => exact spent_le names settings.jobRetryCount st.retriedJobs
  | cons p polls ih =>
      obtain ⟨rfl, hpassed, hrest⟩ := hsteps
      have hrest := ih hrest fun p hp ↦ hpolls p (List.mem_cons_of_mem _ hp)
      have hexternal : ((deadlineObserver names timed).after w p.log).answers.external =
          p.external := external_eq (hpolls p List.mem_cons_self)
      have hspent := hpassed.spent
      rw [List.countP_cons]
      split_ifs with hmoved
      · obtain ⟨hmoved, hown⟩ := Bool.and_eq_true_iff.mp hmoved
        have hless := (hpassed.moved (of_decide_eq_true hmoved)).resolve_left (by
          rw [hexternal]
          simpa using hown)
        omega
      · omega

theorem lastChance_add_le {st : PipelineWaitState} {w : DeadlineWatch} {polls : List Poll}
    (hsteps : (deadlineObserver names timed).Steps (Passed settings names timed) st w polls) :
    polls.countP Poll.lastChance + (if st.timeoutLastChanceUsed then 1 else 0) ≤ 1 := by
  induction polls generalizing st w with
  | nil => split_ifs <;> simp
  | cons p polls ih =>
      obtain ⟨rfl, hpassed, hrest⟩ := hsteps
      have hrest := ih hrest
      have hreprieved := hpassed.reprieved
      rw [List.countP_cons]
      unfold Poll.lastChance at hrest ⊢
      cases hbefore : p.before.timeoutLastChanceUsed with
      | true =>
          rw [hreprieved hbefore] at hrest
          simpa using hrest
      | false =>
          cases hafter : p.after.timeoutLastChanceUsed with
          | true =>
              rw [hafter] at hrest
              simpa using hrest
          | false =>
              rw [hafter] at hrest
              simpa using hrest

/-- The polls of a call, from what the loop starts with. -/
theorem steps_polls (mrIid : ℕ) (s : Local) (replies : List (Reply Op Op.Answer PyError))
    (start : ℤ) (hallows : (deadlineObserver names timed).Allows { clock := start }
      ((waitForPipeline settings mrIid s).converse replies).1) :
    polls settings mrIid s replies = [] ∨
      ∃ st w, (timed = true → st.startTime ≤ w.clock) ∧
        (deadlineObserver names timed).Steps (Passed settings names timed) st w
          (polls settings mrIid s replies) := by
  unfold polls
  split
  · next log st s' hinit =>
      right
      have hwhole : ((waitForPipeline settings mrIid s).converse replies).1 = log ++
          ((Program.loop (pipelineRound settings mrIid) settings.rounds st s').converse
            (replies.drop log.length)).1 := congrArg Prod.fst (Task.converse_andThen hinit)
      rw [hwhole, Observer.allows_append] at hallows
      have hinitial : (initPipelineWaitState settings mrIid).Told (deadlineObserver names timed)
          (fun _ _ ↦ True) (fun st _ w ↦ timed = true → st.startTime ≤ w.clock)
          fun _ _ _ ↦ True := told_initPipelineWaitState mrIid
      have hstart := Task.Safe.converse trivial (hinitial s { clock := start } trivial) replies
      rw [hinit] at hstart
      refine ⟨st, (deadlineObserver names timed).after { clock := start } log,
        (hstart hallows.1).2, ?_⟩
      obtain ⟨rest, hrest⟩ := Program.passes_log (pipelineRound settings mrIid) settings.rounds
        (replies.drop log.length) st s'
      refine Told.steps (fun st w ↦ (told_pipelineRound mrIid st w).mono (fun _ _ h ↦ h)
        (fun next _ _ h ↦ by cases next <;> exact h) fun _ _ _ h ↦ h) trivial _ _ _ _ ?_
      rw [← hrest, Observer.allows_append] at hallows
      exact hallows.2.1
  · exact Or.inl rfl

theorem polls_log_cons (mrIid : ℕ) (s : Local) (replies : List (Reply Op Op.Answer PyError)) :
    ∀ p ∈ polls settings mrIid s replies,
      ∃ answer log, p.log = ⟨.shutdownRequested, answer⟩ :: log := by
  unfold polls
  split
  · exact passes_log_cons mrIid _ _ _ _
  · exact fun _ hp ↦ by cases hp

end Deadline

open PipelineHandler (polls)
open Deadline (Passed steps_polls)

/-- While one pipeline is followed, the deadline moves for retries of its own at most as often
as the names may be retried, and the last chance is given once.  Where time goes on, the
polls end unless somebody else retries the jobs again and again. -/
theorem deadline_moves_within_budget (settings : Settings) (names : Finset String) (mrIid : ℕ)
    (s : Local) (replies : List (Reply Op Op.Answer PyError)) (start : ℤ)
    (hsteady : (deadlineObserver names false).Allows { clock := start }
      ((PipelineHandler.waitForPipeline settings mrIid s).converse replies).1) :
    ((polls settings mrIid s replies).countP fun p ↦ p.moved && !p.external) ≤
        names.card * settings.jobRetryCount ∧
      (polls settings mrIid s replies).countP Poll.lastChance ≤ 1 ∧
      (0 < settings.pipelinePollIntervalSeconds →
        (deadlineObserver names true).Allows { clock := start }
          ((PipelineHandler.waitForPipeline settings mrIid s).converse replies).1 →
        (polls settings mrIid s replies).length ≤
          (names.card * settings.jobRetryCount +
              ((polls settings mrIid s replies).countP fun p ↦ p.moved && p.external) + 1) *
            (settings.pipelineTimeoutSeconds / settings.pipelinePollIntervalSeconds + 1) + 1) := by
  have hbudget : ((polls settings mrIid s replies).countP fun p ↦ p.moved && !p.external) ≤
      names.card * settings.jobRetryCount := by
    rcases steps_polls mrIid s replies start hsteady with hnone | ⟨st, w, -, hsteps⟩
    · simp [hnone]
    · have hspent := Deadline.spent_add_moved_le hsteps
        (Deadline.polls_log_cons mrIid s replies)
      omega
  refine ⟨hbudget, ?_, fun hinterval htimed ↦ ?_⟩
  · rcases steps_polls mrIid s replies start hsteady with hnone | ⟨st, w, -, hsteps⟩
    · simp [hnone]
    · have hchance := Deadline.lastChance_add_le hsteps
      omega
  · rcases steps_polls mrIid s replies start htimed with hnone | ⟨st, w, hstart, hsteps⟩
    · simp [hnone]
    · let limit := settings.pipelineTimeoutSeconds / settings.pipelinePollIntervalSeconds + 1
      have hlimit : ∀ n : ℕ, (n : ℤ) * (settings.pipelinePollIntervalSeconds * 1000000) ≤
          settings.pipelineTimeoutSeconds * 1000000 → n < limit := by
        intro n hn
        have hfits : n * settings.pipelinePollIntervalSeconds ≤
            settings.pipelineTimeoutSeconds := by
          zify
          linarith
        exact Nat.lt_succ_of_le ((Nat.le_div_iff_mul_le hinterval).mpr hfits)
      have hlength := hsteps.length_le (n := 0) (by positivity) hlimit
        (fun _ _ _ _ h ↦ h.meets rfl) (Nat.zero_le _) (by simpa using hstart rfl)
      have hsplit : (polls settings mrIid s replies).countP Poll.moved =
          ((polls settings mrIid s replies).countP fun p ↦ p.moved && p.external) +
            (polls settings mrIid s replies).countP fun p ↦ p.moved && !p.external := by
        rw [List.countP_eq_countP_filter_add _ Poll.moved Poll.external, List.countP_filter,
          List.countP_filter]
      have hmoves : (polls settings mrIid s replies).countP Poll.moved + 1 ≤
          names.card * settings.jobRetryCount +
            ((polls settings mrIid s replies).countP fun p ↦ p.moved && p.external) + 1 := by omega
      have hrounds := Nat.mul_le_mul_right limit hmoves
      have hchance : (if st.timeoutLastChanceUsed = true then 0 else 1) ≤ 1 := by
        split_ifs <;> omega
      exact hlength.trans (Nat.add_le_add hrounds hchance)

/-! ## Retries that somebody else makes -/

def deadlineSettings : Settings where
  gitlabProjectId := 1
  rounds := 2

/-- The merge request is in testing, and its pipeline is tracked. -/
def trackedDatabase : Database :=
  committed sampleDatabase (QueueManager.updateMrState 1 7 .testing
    { pipelineId := some (some 5), expectedSha := some (some "a1") } 0 sampleDatabase)

/-- The failed pipeline of the merge request, whose job has this status. -/
def answersWhile (status : PipelineStatus) (fault : Option Fault) (now : ℤ) : Choice where
  now
  fault
  gitlab
    | .getMr .. => { sampleMergeRequest with mergeStatus := "can_be_merged" }
    | .getLatestMrPipeline _ => some { id := 5, status := .failed, sha := "a1", ref := "fix" }
    | .getPipelineJobs _ => [{ id := 8, name := "test", status, stage := "test" }]
    | call => answersFor sampleMergeRequest call

def notRetryableError : PyError :=
  .gitlab { kind := .api, message := "403 Forbidden", statusCode := some 403 }

/-- A poll that finds the job failed, may not retry it, and finds it running again. -/
def refusedPoll (now : ℤ) : List Choice :=
  List.replicate 8 (answersWhile .failed none now) ++
    [answersWhile .failed (some { error := notRetryableError }) now] ++
    List.replicate 3 (answersWhile .running none now)

def refusedReplies : List (Reply Op Op.Answer PyError) :=
  (List.replicate 3 (answersWhile .failed none 0) ++ refusedPoll 5000000 ++
    refusedPoll 10000000).map ({ db := trackedDatabase : World }.reply deadlineSettings.qm)

def deadlineLocal : Local where
  machine := some { projectId := 1, mrIid := 7, targetBranch := "master", current := .testing }

/-- Somebody else retries the job, and when it fails again, the retry is accepted. -/
def acceptedReplies : List (Reply Op Op.Answer PyError) :=
  (List.replicate 3 (answersWhile .failed none 0) ++ refusedPoll 5000000 ++
    List.replicate 16 (answersWhile .failed none 10000000)).map
    ({ db := trackedDatabase : World }.reply deadlineSettings.qm)

theorem deadline_moves_within_budget_accepted :
    (polls deadlineSettings 7 deadlineLocal acceptedReplies).map
        (fun p ↦ (p.moved, p.external)) = [(true, true), (true, false)] ∧
      ((polls deadlineSettings 7 deadlineLocal acceptedReplies).countP fun p ↦
        p.moved && !p.external) ≤ 1 ∧
      (polls deadlineSettings 7 deadlineLocal acceptedReplies).length ≤
        (1 + 1 + 1) * (7200 / 5 + 1) + 1 := by
  have hpolls : (polls deadlineSettings 7 deadlineLocal acceptedReplies).map
      (fun p ↦ (p.moved, p.external)) = [(true, true), (true, false)] := by decide +kernel
  obtain ⟨hbudget, -, hlength⟩ := deadline_moves_within_budget deadlineSettings {"test"} 7
    deadlineLocal acceptedReplies 0 (by decide +kernel)
  have hexternal : ((polls deadlineSettings 7 deadlineLocal acceptedReplies).countP fun p ↦
      p.moved && p.external) = 1 := by decide +kernel
  have hbound := hlength (by decide) (by decide +kernel)
  rw [hexternal] at hbound
  exact ⟨hpolls, hbudget, hbound⟩

/-- Somebody who retries the only job twice moves the deadline twice. -/
theorem deadline_moves_beyond_budget :
    ¬ ∀ (settings : Settings) (names : Finset String) (mrIid : ℕ) (s : Local)
        (replies : List (Reply Op Op.Answer PyError)) (start : ℤ),
      (deadlineObserver names true).Allows { clock := start }
        ((PipelineHandler.waitForPipeline settings mrIid s).converse replies).1 →
      (polls settings mrIid s replies).countP Poll.moved ≤ names.card * settings.jobRetryCount := by
  intro hclaim
  have hbudget := hclaim deadlineSettings {"test"} 7 {} refusedReplies 0 (by decide +kernel)
  exact absurd hbudget (by decide +kernel)

end MergeQueue
