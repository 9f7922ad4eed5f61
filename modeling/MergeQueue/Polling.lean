import Mathlib.Algebra.Order.Floor.Ring
import Mathlib.Data.Rat.Floor
import Mathlib.Tactic.IntervalCases
import MergeQueue.Lib.Rounds
import MergeQueue.RebaseHandler

/-!
# Polling until something is done

The loop behind every wait for GitLab.  It looks at the shutdown event, at the clock, at
the result of the poll and at the clock again before it sleeps.  The exchanges of a call
have a shape from which its outcome, what it awaits after it has seen a reason to stop,
and the number of its polls are read off.
-/

namespace MergeQueue.Polling

open Interleave

inductive PollStatus
  | keepPolling
  | done
  deriving DecidableEq, Repr

/-- The durations are given in seconds. -/
structure PollingConfig where
  timeoutSeconds : ℚ
  pollIntervalSeconds : ℚ

structure PollOutcome (T : Type) where
  completed : Bool
  timedOut : Bool
  shutdownRequested : Bool
  result : Option T
  deriving DecidableEq, Repr

/-- Rounds to the nearest integer, a half to the even one. -/
def roundHalfEven (q : ℚ) : ℤ :=
  if q - ⌊q⌋ < 1 / 2 then ⌊q⌋
  else if 1 / 2 < q - ⌊q⌋ then ⌊q⌋ + 1
  else if ⌊q⌋ % 2 = 0 then ⌊q⌋ else ⌊q⌋ + 1

/-- The double nearest to a number of the normal range. -/
def nearestDouble (q : ℚ) : ℚ :=
  let e : ℤ := Nat.log2 q.num.natAbs - Nat.log2 q.den
  let ulp : ℚ := 2 ^ ((if |q| < 2 ^ e then e - 1 else e) - 52)
  roundHalfEven (q / ulp) * ulp

/-- `timedelta(seconds=seconds)` in microseconds, where it is no more than 999999999 days.  The
part of a second is multiplied as a double before the sum is rounded. -/
def timedelta (seconds : ℚ) : Option ℤ :=
  let whole : ℤ := if 0 ≤ seconds then ⌊seconds⌋ else ⌈seconds⌉
  let us := roundHalfEven (whole * 1000000 + nearestDouble ((seconds - whole) * 1000000))
  if -86399999913600000000 ≤ us ∧ us ≤ 86399999999999999999 then some us else none

section Loop

variable {Op : Type} {A : Op → Type} {σ ε T : Type} (overflow : ε)
  (isSet : Program Op A σ ε Bool) (now : Program Op A σ ε ℤ)
  (sleep : ℚ → Program Op A σ ε Bool) (pollFn : Program Op A σ ε (PollStatus × Option T))

/-- Once around the loop, from one look at the shutdown event to the next. -/
def pollRound (config : PollingConfig) (timeout startTime : ℤ) :
    Program Op A σ ε (Unit ⊕ PollOutcome T) := do
  if ← isSet then return .inr ⟨false, false, true, none⟩
  else do
    let before ← now
    if timeout < before - startTime then return .inr ⟨false, true, false, none⟩
    else do
      let (status, result) ← pollFn
      match status with
      | .done => return .inr ⟨true, false, false, result⟩
      | .keepPolling => do
          -- The poll may have taken long.
          let after ← now
          if timeout < after - startTime then return .inr ⟨false, true, false, none⟩
          else do
            if ← sleep config.pollIntervalSeconds then return .inl ()
            else return .inr ⟨false, false, true, none⟩

/-- `poll_until_done`, followed for a number of rounds. -/
def pollUntilDone (config : PollingConfig) (rounds : ℕ) : Program Op A σ ε (PollOutcome T) :=
  match timedelta config.timeoutSeconds with
  | none => throw overflow
  | some timeout => do
      let startTime ← now
      Program.loop (fun _ ↦ pollRound isSet now sleep pollFn config timeout startTime) rounds ()

end Loop

/-! ## The waits of the workflow -/

theorem roundHalfEven_intCast (z : ℤ) : roundHalfEven z = z := by
  unfold roundHalfEven
  rw [Int.floor_intCast, sub_self, if_pos (by norm_num)]

theorem timedelta_natCast {seconds : ℕ} (h : seconds < 86400000000000) :
    timedelta seconds = some (seconds * 1000000) := by
  have hwhole : (if 0 ≤ (seconds : ℚ) then ⌊(seconds : ℚ)⌋ else ⌈(seconds : ℚ)⌉) = seconds := by
    rw [if_pos seconds.cast_nonneg, Int.floor_natCast]
  have hpart : nearestDouble ((seconds - ((seconds : ℤ) : ℚ)) * 1000000) = 0 := by
    rw [Int.cast_natCast, sub_self, zero_mul]
    decide +kernel
  have hround : roundHalfEven (((seconds : ℤ) : ℚ) * 1000000 + 0) = seconds * 1000000 := by
    rw [add_zero]
    exact_mod_cast roundHalfEven_intCast (seconds * 1000000)
  unfold timedelta
  simp only [hwhole, hpart, hround]
  exact if_pos (by omega)

/-- The outcome in the form that the callers take apart. -/
def outcomeOf {α : Type} : MergeQueue.PollOutcome α → PollOutcome α
  | .completed result => ⟨true, false, false, some result⟩
  | .timedOut => ⟨false, true, false, none⟩
  | .shutdownRequested => ⟨false, false, true, none⟩

def statusOf {α : Type} : Option α → PollStatus × Option α
  | some result => (.done, some result)
  | none => (.keepPolling, none)

theorem pollRound_eq {α : Type} (startTime : ℤ) (timeoutSeconds interval : ℕ)
    (pollFn : Prog (Option α)) :
    (MergeQueue.pollRound startTime timeoutSeconds interval pollFn >>= fun next ↦
        pure (next.map id outcomeOf)) =
      pollRound (Prog.await .shutdownRequested) Prog.now
        (fun _ ↦ Prog.await (.sleep (.poll interval)))
        (pollFn >>= fun polled ↦ pure (statusOf polled)) ⟨timeoutSeconds, interval⟩
        (timeoutSeconds * 1000000) startTime := by
  unfold MergeQueue.pollRound pollRound
  rw [Program.bind_assoc]
  refine congrArg (Prog.await .shutdownRequested >>= ·) (funext fun stopping ↦ ?_)
  cases stopping with
  | true => rfl
  | false =>
  refine (Program.bind_assoc _ _ _).trans (congrArg (Prog.now >>= ·) (funext fun before ↦ ?_))
  by_cases hlate : (timeoutSeconds : ℤ) * 1000000 < before - startTime
  · rw [if_pos hlate, if_pos (by simpa [expired] using hlate)]
    rfl
  rw [if_neg hlate, if_neg (by simpa [expired] using hlate), Program.bind_assoc,
    Program.bind_assoc]
  refine congrArg (pollFn >>= ·) (funext fun polled ↦ ?_)
  cases polled with
  | some result => rfl
  | none =>
  refine (Program.bind_assoc _ _ _).trans (congrArg (Prog.now >>= ·) (funext fun after ↦ ?_))
  by_cases hlater : (timeoutSeconds : ℤ) * 1000000 < after - startTime
  · rw [if_pos hlater, if_pos (by simpa [expired] using hlater)]
    rfl
  rw [if_neg hlater, if_neg (by simpa [expired] using hlater), Program.bind_assoc]
  refine congrArg (Prog.await (.sleep (.poll interval)) >>= ·) (funext fun slept ↦ ?_)
  cases slept <;> rfl

/-- The waits of the other modules are calls of the loop with whole seconds. -/
theorem pollUntilDone_eq {α : Type} (settings : Settings) {timeoutSeconds : ℕ}
    (h : timeoutSeconds < 86400000000000) (interval : ℕ) (pollFn : Prog (Option α))
    (overflow : PyError) :
    (MergeQueue.pollUntilDone settings timeoutSeconds interval pollFn >>= fun outcome ↦
        pure (outcomeOf outcome)) =
      pollUntilDone overflow (Prog.await .shutdownRequested) Prog.now
        (fun _ ↦ Prog.await (.sleep (.poll interval)))
        (pollFn >>= fun polled ↦ pure (statusOf polled)) ⟨timeoutSeconds, interval⟩
        settings.rounds := by
  unfold MergeQueue.pollUntilDone pollUntilDone
  rw [show timedelta (PollingConfig.mk timeoutSeconds interval).timeoutSeconds =
    some (timeoutSeconds * 1000000) from timedelta_natCast h, Program.bind_assoc]
  refine congrArg (Prog.now >>= ·) (funext fun start ↦ ?_)
  rw [Program.loop_bind_pure]
  refine congrArg (fun body ↦ Program.loop body settings.rounds ()) (funext fun _ ↦ ?_)
  exact pollRound_eq start timeoutSeconds interval pollFn

/-! ## A call among anything that may happen -/

inductive PollOp
  | isSet
  | now
  | poll
  | sleep (seconds : ℚ)
  deriving DecidableEq

abbrev PollOp.Answer (T : Type) : PollOp → Type
  | isSet | sleep _ => Bool
  | now => ℤ
  | poll => PollStatus × Option T

inductive OverflowError
  | overflowError

/-- What every operation answers at one moment.  None of them raises. -/
abbrev Moment (T : Type) := (op : PollOp) → op.Answer T

abbrev Entry (T : Type) := Interleave.Exchange PollOp (PollOp.Answer T) OverflowError

variable {T : Type}

def entry (op : PollOp) (answer : op.Answer T) : Entry T := ⟨op, .ok answer⟩

def Moment.reply (moment : Moment T) : Reply PollOp (PollOp.Answer T) OverflowError :=
  fun op ↦ .ok (moment op)

abbrev Call (T α : Type) := Program PollOp (PollOp.Answer T) Unit OverflowError α

def isSet : Call T Bool := Program.call PollOp.isSet

def now : Call T ℤ := Program.call PollOp.now

def poll : Call T (PollStatus × Option T) := Program.call PollOp.poll

def sleep (seconds : ℚ) : Call T Bool := Program.call (PollOp.sleep seconds)

/-- The loop over the four operations. -/
def polling (config : PollingConfig) (timeout startTime : ℤ) (rounds : ℕ) :
    Call T (PollOutcome T) :=
  Program.loop (fun _ ↦ pollRound isSet now sleep poll config timeout startTime) rounds ()

/-- A call, with what it awaits and what is left of it. -/
def call (config : PollingConfig) (rounds : ℕ) (moments : List (Moment T)) :
    List (Entry T) × Task PollOp (PollOp.Answer T) Unit OverflowError (PollOutcome T) :=
  (pollUntilDone .overflowError isSet now sleep poll config rounds ()).converse
    (moments.map Moment.reply)

inductive Ending (T : Type)
  | returned (outcome : PollOutcome T)
  | raised
  | awaiting
  | unfollowed

def ending : Task PollOp (PollOp.Answer T) Unit OverflowError (PollOutcome T) → Ending T
  | .done (.ok outcome) _ => .returned outcome
  | .done (.error _) _ => .raised
  | .ask .. => .awaiting
  | .cut => .unfollowed

/-! ## The shape of a call -/

/-- A round that is followed by another one. -/
def turn (config : PollingConfig) (before : ℤ) (result : Option T) (after : ℤ) : List (Entry T) :=
  [entry .isSet false, entry .now before, entry .poll (.keepPolling, result), entry .now after,
    entry (.sleep config.pollIntervalSeconds) true]

/-- The exchanges of the loop in so many rounds, and what has become of it. -/
inductive Polled (config : PollingConfig) (timeout startTime : ℤ) :
    ℕ → List (Entry T) → Ending T → Prop
  | shutdown (rounds : ℕ) : Polled config timeout startTime rounds [entry .isSet true]
      (.returned ⟨false, false, true, none⟩)
  | late (rounds : ℕ) (before : ℤ) : timeout < before - startTime →
      Polled config timeout startTime rounds [entry .isSet false, entry .now before]
        (.returned ⟨false, true, false, none⟩)
  | done (rounds : ℕ) (before : ℤ) (result : Option T) : before - startTime ≤ timeout →
      Polled config timeout startTime rounds
        [entry .isSet false, entry .now before, entry .poll (.done, result)]
        (.returned ⟨true, false, false, result⟩)
  | lateAfter (rounds : ℕ) (before : ℤ) (result : Option T) (after : ℤ) :
      before - startTime ≤ timeout → timeout < after - startTime →
      Polled config timeout startTime rounds
        [entry .isSet false, entry .now before, entry .poll (.keepPolling, result),
          entry .now after]
        (.returned ⟨false, true, false, none⟩)
  | interrupted (rounds : ℕ) (before : ℤ) (result : Option T) (after : ℤ) :
      before - startTime ≤ timeout → after - startTime ≤ timeout →
      Polled config timeout startTime rounds
        [entry .isSet false, entry .now before, entry .poll (.keepPolling, result),
          entry .now after, entry (.sleep config.pollIntervalSeconds) false]
        (.returned ⟨false, false, true, none⟩)
  | again (rounds : ℕ) (before : ℤ) (result : Option T) (after : ℤ) (log : List (Entry T))
      (e : Ending T) : before - startTime ≤ timeout → after - startTime ≤ timeout →
      Polled config timeout startTime rounds log e →
      Polled config timeout startTime (rounds + 1) (turn config before result after ++ log) e
  | awaiting (rounds : ℕ) (before : ℤ) (result : Option T) (after : ℤ) (n : ℕ) : n < 5 →
      (2 < n → before - startTime ≤ timeout) →
      Polled config timeout startTime rounds ((turn config before result after).take n) .awaiting
  | unfollowed : Polled config timeout startTime 0 [] .unfollowed

/-- One round of the loop, and the rest of the loop where it goes on. -/
theorem polling_succ (config : PollingConfig) (timeout startTime : ℤ) (rounds : ℕ) :
    (polling config timeout startTime (rounds + 1) : Call T (PollOutcome T)) = (do
      if ← isSet then return ⟨false, false, true, none⟩
      else do
        let before ← now
        if timeout < before - startTime then return ⟨false, true, false, none⟩
        else do
          let polled ← poll
          match polled.1 with
          | .done => return ⟨true, false, false, polled.2⟩
          | .keepPolling => do
              let after ← now
              if timeout < after - startTime then return ⟨false, true, false, none⟩
              else do
                if ← sleep config.pollIntervalSeconds then
                  polling config timeout startTime rounds
                else return ⟨false, false, true, none⟩) := by
  funext s
  refine congrArg (Task.ask s PollOp.isSet) (funext fun stopping ↦ ?_)
  rcases stopping with _ | _ | _
  · rfl
  · refine congrArg (Task.ask s PollOp.now) (funext fun before ↦ ?_)
    rcases before with _ | before
    · rfl
    · simp only [Task.andThen]
      by_cases hlate : timeout < before - startTime
      · rw [if_pos hlate, if_pos hlate]
        rfl
      · rw [if_neg hlate, if_neg hlate]
        refine congrArg (Task.ask s PollOp.poll) (funext fun polled ↦ ?_)
        rcases polled with _ | ⟨_ | _, result⟩
        · rfl
        · refine congrArg (Task.ask s PollOp.now) (funext fun after ↦ ?_)
          rcases after with _ | after
          · rfl
          · simp only [Task.andThen]
            by_cases hlater : timeout < after - startTime
            · rw [if_pos hlater, if_pos hlater]
              rfl
            · rw [if_neg hlater, if_neg hlater]
              refine congrArg (Task.ask s (PollOp.sleep _)) (funext fun slept ↦ ?_)
              rcases slept with _ | _ | _ <;> rfl
        · rfl
  · rfl

/-- After the exchanges `sofar` the rest of the loop completes the shape of a call. -/
def Completes (config : PollingConfig) (timeout startTime : ℤ) (rounds : ℕ)
    (sofar : List (Entry T))
    (t : Task PollOp (PollOp.Answer T) Unit OverflowError (PollOutcome T)) : Prop :=
  ∀ moments : List (Moment T), Polled config timeout startTime rounds
    (sofar ++ (t.converse (moments.map Moment.reply)).1)
    (ending (t.converse (moments.map Moment.reply)).2)

section Completes

variable {config : PollingConfig} {timeout startTime : ℤ} {rounds : ℕ} {sofar : List (Entry T)}
  {s : Unit}

theorem completes_pure {outcome : PollOutcome T}
    (h : Polled config timeout startTime rounds sofar (.returned outcome)) :
    Completes config timeout startTime rounds sofar
      ((pure outcome : Call T (PollOutcome T)) s) := by
  intro moments
  have hdone : ((pure outcome : Call T (PollOutcome T)) s).converse
      (moments.map Moment.reply) = ([], .done (.ok outcome) s) := Task.converse_done _ _ _
  rw [hdone, List.append_nil]
  exact h

theorem completes_await {op : PollOp} {f : op.Answer T → Call T (PollOutcome T)}
    (hawaiting : Polled config timeout startTime rounds sofar .awaiting)
    (h : ∀ answer, Completes config timeout startTime rounds (sofar ++ [entry op answer])
      (f answer s)) :
    Completes config timeout startTime rounds sofar
      ((Program.call op >>= f : Call T (PollOutcome T)) s) := by
  intro moments
  cases moments with
  | nil =>
      have hnone : ((Program.call op >>= f : Call T (PollOutcome T)) s).converse [] =
          ([], (Program.call op >>= f : Call T (PollOutcome T)) s) := rfl
      rw [List.map_nil, hnone, List.append_nil]
      exact hawaiting
  | cons moment moments =>
      have hrest := h (moment op) moments
      rw [List.append_assoc] at hrest
      exact hrest

theorem completes_again {before after : ℤ} {result : Option T}
    {t : Task PollOp (PollOp.Answer T) Unit OverflowError (PollOutcome T)}
    (hbefore : before - startTime ≤ timeout) (hafter : after - startTime ≤ timeout)
    (h : Completes config timeout startTime rounds [] t) :
    Completes config timeout startTime (rounds + 1) (turn config before result after) t :=
  fun moments ↦ .again rounds before result after _ _ hbefore hafter (h moments)

end Completes

/-- Whatever the answers are, the exchanges of the loop have this shape. -/
theorem completes_polling (config : PollingConfig) (timeout startTime : ℤ) (rounds : ℕ)
    (s : Unit) : Completes config timeout startTime rounds []
      ((polling config timeout startTime rounds : Call T (PollOutcome T)) s) := by
  induction rounds with
  | zero =>
      intro moments
      have hcut : ((polling config timeout startTime 0 : Call T (PollOutcome T)) s).converse
          (moments.map Moment.reply) = ([], .cut) := by
        cases moments <;> rfl
      rw [hcut]
      exact .unfollowed
  | succ rounds ih =>
      rw [polling_succ]
      apply completes_await (.awaiting _ 0 none 0 0 (by omega) (by omega))
      intro stopping
      cases stopping with
      | true => exact completes_pure (.shutdown _)
      | false =>
          apply completes_await (.awaiting _ 0 none 0 1 (by omega) (by omega))
          intro before
          by_cases hlate : timeout < before - startTime
          · rw [if_pos hlate]
            exact completes_pure (.late _ before hlate)
          · rw [if_neg hlate]
            apply completes_await (.awaiting _ before none 0 2 (by omega) (by omega))
            rintro ⟨status, result⟩
            cases status with
            | done => exact completes_pure (.done _ before result (by omega))
            | keepPolling =>
                apply completes_await (.awaiting _ before result 0 3 (by omega) (by omega))
                intro after
                by_cases hlater : timeout < after - startTime
                · rw [if_pos hlater]
                  exact completes_pure (.lateAfter _ before result after (by omega) hlater)
                · rw [if_neg hlater]
                  apply completes_await
                    (.awaiting _ before result after 4 (by omega) (by omega))
                  intro slept
                  cases slept with
                  | true => exact completes_again (by omega) (by omega) ih
                  | false =>
                      exact completes_pure
                        (.interrupted _ before result after (by omega) (by omega))

/-! ## What the shape tells -/

def reading : Entry T → Option ℤ
  | ⟨.now, .ok t⟩ => some t
  | _ => none

/-- What the clock showed, from the start on. -/
def readings (log : List (Entry T)) : List ℤ := log.filterMap reading

def isPoll (e : Entry T) : Bool := e.op = .poll

def isSleep : Entry T → Bool
  | ⟨.sleep _, _⟩ => true
  | _ => false

/-- The loop has learnt that it shall stop. -/
def tellsShutdown : Entry T → Bool
  | ⟨.isSet, .ok stopping⟩ => stopping
  | ⟨.sleep _, .ok slept⟩ => !slept
  | _ => false

def tellsLate (timeout startTime : ℤ) (e : Entry T) : Bool :=
  (reading e).any fun t ↦ timeout < t - startTime

/-- Every sleep that was not interrupted lasted for the interval. -/
def SleepsAdvance (config : PollingConfig) (log : List (Entry T)) : Prop :=
  ∀ before seconds after, log = before ++ entry (.sleep seconds) true :: after →
    ∀ t ∈ readings before, ∀ t' ∈ readings after,
      (t : ℚ) + config.pollIntervalSeconds * 1000000 ≤ t'

/-- How often a poll fits into the timeout. -/
def maxPolls (config : PollingConfig) (timeout : ℤ) : ℕ :=
  (⌊timeout / (config.pollIntervalSeconds * 1000000)⌋ + 1).toNat

theorem lt_maxPolls {config : PollingConfig} (hinterval : 0 < config.pollIntervalSeconds)
    {timeout : ℤ} {n : ℕ} (h : n * (config.pollIntervalSeconds * 1000000) ≤ timeout) :
    n < maxPolls config timeout := by
  have hus : 0 < config.pollIntervalSeconds * 1000000 := by positivity
  have hfloor : (n : ℤ) ≤ ⌊timeout / (config.pollIntervalSeconds * 1000000)⌋ := by
    rw [Int.le_floor, le_div_iff₀ hus]
    exact_mod_cast h
  unfold maxPolls
  omega

section Polled

variable {config : PollingConfig} {timeout startTime : ℤ} {rounds : ℕ} {log : List (Entry T)}
  {e : Ending T}

/-- Nothing is awaited after a reason to stop. -/
theorem Polled.stops (h : Polled config timeout startTime rounds log e) :
    log.Pairwise fun seen _ ↦ ¬ (tellsShutdown seen ∨ tellsLate timeout startTime seen) := by
  induction h with
  | again rounds before result after log e hbefore hafter h ih =>
      have hturn : ∀ seen ∈ turn config before result after,
          ¬ (tellsShutdown seen ∨ tellsLate timeout startTime seen) := by
        simp [turn, entry, tellsShutdown, tellsLate, reading]
        omega
      rw [List.pairwise_append]
      refine ⟨?_, ih, fun seen hseen _ _ ↦ hturn seen hseen⟩
      exact List.pairwise_of_forall_mem_list fun seen hseen _ _ ↦ hturn seen hseen
  | awaiting rounds before result after n hn hbefore =>
      interval_cases n <;>
        simp_all [turn, entry, tellsShutdown, tellsLate, reading]
  | _ => simp_all [entry, tellsShutdown, tellsLate, reading]

/-- The outcome has one reason, and only a poll that was done completes the loop. -/
theorem Polled.outcome (h : Polled config timeout startTime rounds log e)
    {outcome : PollOutcome T} (he : e = .returned outcome) :
    [outcome.completed, outcome.timedOut, outcome.shutdownRequested].count true = 1 ∧
      (outcome.completed = true → ∃ result, entry .poll (.done, result) ∈ log) := by
  induction h with
  | again rounds before result after log e hbefore hafter h ih =>
      obtain ⟨hone, hdone⟩ := ih he
      refine ⟨hone, fun hcompleted ↦ ?_⟩
      obtain ⟨result, hmem⟩ := hdone hcompleted
      exact ⟨result, List.mem_append_right _ hmem⟩
  | awaiting rounds before result after n hn hbefore => cases he
  | unfollowed => cases he
  | _ =>
      cases he
      simp [entry]

/-- Once a poll was done, the loop returns with its result. -/
theorem Polled.returned_of_done (h : Polled config timeout startTime rounds log e)
    {result : Option T} (hmem : entry .poll (.done, result) ∈ log) :
    e = .returned ⟨true, false, false, result⟩ := by
  induction h with
  | again rounds before result' after log e hbefore hafter h ih =>
      apply ih
      simpa [turn, entry] using hmem
  | awaiting rounds before result' after n hn hbefore =>
      have hturn := List.mem_of_mem_take hmem
      simp [turn, entry] at hturn
  | _ => simp_all [entry]

/-- A loop that was followed to the end of its rounds has polled in each of them. -/
theorem Polled.countP_of_unfollowed (h : Polled config timeout startTime rounds log e)
    (he : e = .unfollowed) : log.countP isPoll = rounds := by
  induction h with
  | again rounds before result after log e hbefore hafter h ih =>
      rw [List.countP_append, ih he]
      simp [turn, entry, isPoll, Nat.add_comm]
  | unfollowed => rfl
  | _ => cases he

theorem Polled.not_raised (h : Polled config timeout startTime rounds log e) : e ≠ .raised := by
  induction h with
  | again rounds before result after log e hbefore hafter h ih => exact ih
  | _ => simp

theorem Polled.length_le (h : Polled config timeout startTime rounds log e) :
    log.length ≤ 5 * log.countP isPoll + 2 := by
  induction h with
  | again rounds before result after log e hbefore hafter h ih =>
      rw [List.countP_append, List.length_append]
      simp [turn, entry, isPoll]
      omega
  | awaiting rounds before result after n hn hbefore =>
      interval_cases n <;> simp [turn, entry, isPoll]
  | _ => simp [entry, isPoll]

/-- Polls that are an interval apart fit into the timeout. -/
theorem Polled.countP_le (h : Polled config timeout startTime rounds log e)
    (hinterval : 0 < config.pollIntervalSeconds) (hadvance : SleepsAdvance config log) {n : ℕ}
    (hn : ∀ t ∈ readings log, (startTime : ℚ) + n * (config.pollIntervalSeconds * 1000000) ≤ t) :
    log.countP isPoll + n ≤ max n (maxPolls config timeout) := by
  -- A reading that is not late leaves room for one more poll.
  have hroom : ∀ {n : ℕ} {before : ℤ}, before - startTime ≤ timeout →
      (startTime : ℚ) + n * (config.pollIntervalSeconds * 1000000) ≤ before →
      n < maxPolls config timeout := by
    intro n before hbefore hlater
    apply lt_maxPolls hinterval
    have hbefore : (before : ℚ) - startTime ≤ timeout := by exact_mod_cast hbefore
    linarith
  induction h generalizing n with
  | again rounds before result after log e hbefore hafter h ih =>
      have hfits := hroom hbefore (hn before (by simp [readings, turn, entry, reading]))
      have hrest : SleepsAdvance config log := by
        intro pre seconds post hlog
        rw [hlog, ← List.append_assoc] at hadvance
        intro t ht
        apply hadvance _ _ _ rfl t
        unfold readings at ht ⊢
        rw [List.filterMap_append]
        exact List.mem_append_right _ ht
      have hlater : ∀ t ∈ readings log,
          (startTime : ℚ) + (n + 1 : ℕ) * (config.pollIntervalSeconds * 1000000) ≤ t := by
        intro t ht
        have hslept := hadvance
          [entry .isSet false, entry .now before, entry .poll (.keepPolling, result),
            entry .now after] config.pollIntervalSeconds log rfl before
          (by simp [readings, entry, reading]) t ht
        have hbefore := hn before (by simp [readings, turn, entry, reading])
        push_cast
        linarith
      have hcount := ih hrest hlater
      rw [List.countP_append]
      simp [turn, entry, isPoll]
      omega
  | awaiting rounds before result after n' hn' hbefore =>
      by_cases hpolled : 2 < n'
      · have hfits := hroom (hbefore hpolled) (hn before (by
          interval_cases n' <;> simp [readings, turn, entry, reading]))
        interval_cases n' <;> simp [turn, entry, isPoll] <;> omega
      · interval_cases n' <;> simp [turn, entry, isPoll]
  | shutdown => simp [entry, isPoll]
  | late => simp [entry, isPoll]
  | unfollowed => simp
  | done rounds before result hbefore =>
      have hfits := hroom hbefore (hn before (by simp [readings, entry, reading]))
      simp [entry, isPoll]
      omega
  | lateAfter rounds before result after hbefore hafter =>
      have hfits := hroom hbefore (hn before (by simp [readings, entry, reading]))
      simp [entry, isPoll]
      omega
  | interrupted rounds before result after hbefore hafter =>
      have hfits := hroom hbefore (hn before (by simp [readings, entry, reading]))
      simp [entry, isPoll]
      omega

end Polled

/-! ## The whole call -/

/-- As `Polled.countP_le`, where the clock has not gone back since the start. -/
theorem Polled.countP_le_maxPolls {config : PollingConfig} {timeout startTime : ℤ} {rounds : ℕ}
    {log : List (Entry T)} {e : Ending T} (h : Polled config timeout startTime rounds log e)
    (hinterval : 0 < config.pollIntervalSeconds)
    (hclock : (readings (entry .now startTime :: log)).Pairwise (· ≤ ·))
    (hadvance : SleepsAdvance config (entry .now startTime :: log)) :
    log.countP isPoll ≤ maxPolls config timeout := by
  have hstart : ∀ t ∈ readings log, startTime ≤ t := by
    have hreadings : readings (entry .now startTime :: log) = startTime :: readings log := rfl
    rw [hreadings, List.pairwise_cons] at hclock
    exact hclock.1
  have hloop : SleepsAdvance config log := by
    intro before seconds after hlog t ht t' ht'
    have hstep := hadvance (entry .now startTime :: before) seconds after
      (by rw [hlog, List.cons_append]) t (List.mem_cons_of_mem _ ht) t' ht'
    exact hstep
  have hzero : ∀ t ∈ readings log,
      (startTime : ℚ) + (0 : ℕ) * (config.pollIntervalSeconds * 1000000) ≤ t := by
    intro t ht
    have hle : (startTime : ℚ) ≤ t := by exact_mod_cast hstart t ht
    simpa using hle
  have hcount := h.countP_le hinterval hloop hzero
  omega

/-- A loop that is followed for more rounds than it polls, and told all that it asks for,
returns. -/
theorem Polled.returned {config : PollingConfig} {timeout startTime : ℤ} {rounds : ℕ}
    {log : List (Entry T)}
    {rest : Task PollOp (PollOp.Answer T) Unit OverflowError (PollOutcome T)}
    (h : Polled config timeout startTime rounds log (ending rest)) {moments : List (Moment T)}
    {t : Task PollOp (PollOp.Answer T) Unit OverflowError (PollOutcome T)}
    (hlog : t.converse (moments.map Moment.reply) = (log, rest))
    (hrounds : log.countP isPoll < rounds)
    (hmoments : 5 * log.countP isPoll + 2 < moments.length) :
    ∃ outcome, ending rest = .returned outcome := by
  match rest with
  | .done (.ok outcome) _ => exact ⟨outcome, rfl⟩
  | .done (.error _) _ => exact absurd rfl (h.not_raised)
  | .ask _ _ _ =>
      have hall := Task.converse_of_ask hlog
      have hlength := h.length_le
      rw [List.length_map] at hall
      omega
  | .cut =>
      have hall := h.countP_of_unfollowed rfl
      omega

theorem call_cons {config : PollingConfig} {timeout : ℤ}
    (htimeout : timedelta config.timeoutSeconds = some timeout) (rounds : ℕ) (moment : Moment T)
    (moments : List (Moment T)) :
    call config rounds (moment :: moments) =
      (entry .now (moment .now) ::
          ((polling config timeout (moment .now) rounds ()).converse
            (moments.map Moment.reply)).1,
        ((polling config timeout (moment .now) rounds ()).converse
          (moments.map Moment.reply)).2) := by
  unfold call pollUntilDone
  rw [htimeout]
  rfl

/-- Whatever happens around a call, its outcome has one reason, which is completion exactly
where a poll was done; it polls no more after it has seen a reason to stop, and sleeps no
more after the deadline.  Where the clock goes on with the sleeps, the polls are counted
and the call returns. -/
theorem pollUntilDone_sound {config : PollingConfig} {timeout : ℤ}
    (htimeout : timedelta config.timeoutSeconds = some timeout) (rounds : ℕ)
    (moments : List (Moment T)) {log : List (Entry T)}
    {rest : Task PollOp (PollOp.Answer T) Unit OverflowError (PollOutcome T)}
    (hcall : call config rounds moments = (log, rest)) :
    (∀ outcome, ending rest = .returned outcome →
      [outcome.completed, outcome.timedOut, outcome.shutdownRequested].count true = 1 ∧
        (outcome.completed = true → ∃ result, entry .poll (.done, result) ∈ log)) ∧
    (∀ result, entry .poll (.done, result) ∈ log →
      ending rest = .returned ⟨true, false, false, result⟩) ∧
    (moments ≠ [] → ∃ startTime loop, log = entry .now startTime :: loop ∧
      loop.Pairwise fun seen next ↦
        (tellsShutdown seen → ¬ isPoll next) ∧
          (tellsLate timeout startTime seen → ¬ isPoll next ∧ ¬ isSleep next)) ∧
    (0 < config.pollIntervalSeconds → (readings log).Pairwise (· ≤ ·) →
      SleepsAdvance config log →
        log.countP isPoll ≤ maxPolls config timeout ∧
          (maxPolls config timeout < rounds →
            5 * maxPolls config timeout + 3 < moments.length →
              ∃ outcome, ending rest = .returned outcome)) := by
  cases moments with
  | nil =>
      have hstart : log = [] ∧ ending rest = .awaiting := by
        unfold call pollUntilDone at hcall
        rw [htimeout] at hcall
        cases hcall
        exact ⟨rfl, rfl⟩
      obtain ⟨rfl, hrest⟩ := hstart
      simp [hrest]
  | cons moment moments =>
      rw [call_cons htimeout] at hcall
      have hshape := completes_polling config timeout (moment .now) rounds () moments
      cases hloop : (polling config timeout (moment .now) rounds ()).converse
          (moments.map Moment.reply) with
      | mk loop rest' =>
      rw [hloop] at hcall hshape
      obtain ⟨rfl, rfl⟩ := Prod.mk.inj hcall
      simp only [List.nil_append] at hshape
      have hmem : ∀ result, entry .poll (.done, result) ∈ entry .now (moment .now) :: loop ↔
          entry .poll (.done, result) ∈ loop := by
        simp [entry]
      simp only [hmem]
      refine ⟨fun outcome ↦ hshape.outcome, fun result ↦ hshape.returned_of_done,
        fun _ ↦ ⟨moment .now, loop, rfl, hshape.stops.imp ?_⟩, ?_⟩
      · intro seen next hgoing
        exact ⟨fun hstop ↦ absurd (Or.inl hstop) hgoing,
          fun hlate ↦ absurd (Or.inr hlate) hgoing⟩
      · intro hinterval hclock hadvance
        have hcount := hshape.countP_le_maxPolls hinterval hclock hadvance
        have hpolls : (entry .now (moment .now) :: loop).countP isPoll = loop.countP isPoll := by
          simp [entry, isPoll]
        rw [hpolls]
        refine ⟨hcount, fun hrounds hmoments ↦ ?_⟩
        rw [List.length_cons] at hmoments
        exact hshape.returned hloop (by omega) (by omega)

/-- A moment at which nothing has happened yet. -/
def quiet (t : ℤ) : Moment ℕ
  | .isSet => false
  | .now => t
  | .poll => (.keepPolling, none)
  | .sleep _ => true

/-- One sleep is as long as the interval where all readings around it are so far apart. -/
theorem sleepsAdvance_append {config : PollingConfig} {before after : List (Entry T)}
    {seconds : ℚ} (hbefore : ∀ e ∈ before, ∀ seconds, e ≠ entry (.sleep seconds) true)
    (hafter : ∀ e ∈ after, ∀ seconds, e ≠ entry (.sleep seconds) true)
    (h : ∀ t ∈ readings before, ∀ t' ∈ readings after,
      (t : ℚ) + config.pollIntervalSeconds * 1000000 ≤ t') :
    SleepsAdvance config (before ++ entry (.sleep seconds) true :: after) := by
  intro before' seconds' after' hlog
  rcases List.append_eq_append_iff.mp hlog with ⟨mid, hmid, hrest⟩ | ⟨mid, hmid, hrest⟩
  · cases mid with
    | nil =>
        rw [List.append_nil] at hmid
        obtain ⟨-, rfl⟩ := List.cons.inj hrest
        rw [hmid]
        exact h
    | cons e mid =>
        obtain ⟨-, hrest⟩ := List.cons.inj hrest
        have hsleep : entry (.sleep seconds') true ∈ after := by
          rw [hrest]
          exact List.mem_append_right _ List.mem_cons_self
        exact absurd rfl (hafter _ hsleep seconds')
  · cases mid with
    | nil =>
        rw [List.append_nil] at hmid
        obtain ⟨-, rfl⟩ := List.cons.inj hrest
        rw [← hmid]
        exact h
    | cons e mid =>
        obtain ⟨he, -⟩ := List.cons.inj hrest
        have hsleep : entry (.sleep seconds') true ∈ before := by
          rw [hmid, he]
          exact List.mem_append_right _ List.mem_cons_self
        exact absurd rfl (hbefore _ hsleep seconds')

/-- What a call awaits up to the end of its first sleep, where nothing happens. -/
def firstSleep (config : PollingConfig) : List (Entry ℕ) :=
  entry .now 0 :: turn config 0 none 0

theorem sleepsAdvance_firstSleep {config : PollingConfig} {after : List (Entry ℕ)}
    (hafter : ∀ e ∈ after, ∀ seconds, e ≠ entry (.sleep seconds) true)
    (h : ∀ t ∈ readings after, config.pollIntervalSeconds * 1000000 ≤ t) :
    SleepsAdvance config (firstSleep config ++ after) := by
  have hsplit : firstSleep config ++ after =
      [entry .now 0, entry .isSet false, entry .now 0, entry .poll (.keepPolling, none),
        entry .now 0] ++ entry (.sleep config.pollIntervalSeconds) true :: after := rfl
  rw [hsplit]
  apply sleepsAdvance_append _ hafter
  · intro t ht t' ht'
    have hreadings : t ∈ [0, 0, 0] := ht
    have hzero : t = 0 := by simpa using hreadings
    simpa [hzero] using h t' ht'
  · simp [entry]

theorem call_firstSleep {config : PollingConfig}
    (htimeout : timedelta config.timeoutSeconds = some 1000000) (rounds : ℕ)
    (moments : List (Moment ℕ)) :
    call config (rounds + 1) (List.replicate 6 (quiet 0) ++ moments) =
      (firstSleep config ++
          ((polling config 1000000 0 rounds ()).converse (moments.map Moment.reply)).1,
        ((polling config 1000000 0 rounds ()).converse (moments.map Moment.reply)).2) :=
  call_cons htimeout (rounds + 1) (quiet 0) (List.replicate 5 (quiet 0) ++ moments)

/-- A moment after the shutdown event was set. -/
def stopping (t : ℤ) : Moment ℕ
  | .isSet => true
  | .now => t
  | .poll => (.keepPolling, none)
  | .sleep _ => false

/-- The shutdown event is set while the call sleeps. -/
theorem pollUntilDone_sound_stopped :
    (call ⟨1, 1⟩ 3 (List.replicate 6 (quiet 0) ++ List.replicate 9 (stopping 0))).1.countP
        isPoll ≤ maxPolls ⟨1, 1⟩ 1000000 ∧
      ∃ outcome, ending (call ⟨1, 1⟩ 3
        (List.replicate 6 (quiet 0) ++ List.replicate 9 (stopping 0))).2 = .returned outcome := by
  have htimeout : timedelta (PollingConfig.mk 1 1).timeoutSeconds = some 1000000 := by
    decide +kernel
  have hlog : (call ⟨1, 1⟩ 3 (List.replicate 6 (quiet 0) ++ List.replicate 9 (stopping 0))).1 =
      firstSleep ⟨1, 1⟩ ++ [entry .isSet true] := by
    rw [call_firstSleep htimeout]
    rfl
  have hfits : maxPolls ⟨1, 1⟩ 1000000 = 2 := by
    unfold maxPolls
    norm_num
    rfl
  obtain ⟨-, -, -, hcounted⟩ := pollUntilDone_sound htimeout 3
    (List.replicate 6 (quiet 0) ++ List.replicate 9 (stopping 0)) Prod.mk.eta.symm
  rw [hlog] at hcounted ⊢
  obtain ⟨hpolls, hreturns⟩ := hcounted one_pos
    (by
      have hreadings : readings (firstSleep ⟨1, 1⟩ ++ [entry .isSet true]) = [0, 0, 0] := rfl
      rw [hreadings]
      decide)
    (sleepsAdvance_firstSleep (by simp [entry]) (by simp [readings, entry, reading]))
  exact ⟨hpolls, hreturns (by omega) (by simp [hfits])⟩

/-- The polls of a call fit into the timeout as it was given. -/
def PollsFit (config : PollingConfig) : Prop :=
  ∀ (rounds : ℕ) (moments : List (Moment ℕ)),
    (readings (call config rounds moments).1).Pairwise (· ≤ ·) →
      SleepsAdvance config (call config rounds moments).1 →
        ((call config rounds moments).1.countP isPoll : ℤ) ≤
          ⌊config.timeoutSeconds / config.pollIntervalSeconds⌋ + 1

/-- A timeout a little shorter than a second is one second long as a timedelta and leaves
time for a second poll.  A timeout in the past has no poll, which is more than none. -/
theorem rounded_timeout_polls_twice :
    ¬ PollsFit ⟨4194303 / 4194304, 1⟩ ∧ ¬ PollsFit ⟨-2, 1⟩ := by
  constructor
  · intro hfit
    have htimeout : timedelta (PollingConfig.mk (4194303 / 4194304) 1).timeoutSeconds =
        some 1000000 := by
      decide +kernel
    have hlog : (call ⟨4194303 / 4194304, 1⟩ 2
        (List.replicate 6 (quiet 0) ++ List.replicate 3 (quiet 1000000))).1 =
          firstSleep ⟨4194303 / 4194304, 1⟩ ++ [entry .isSet false, entry .now 1000000,
            entry .poll (.keepPolling, none)] := by
      rw [call_firstSleep htimeout]
      rfl
    have hpolls := hfit 2 (List.replicate 6 (quiet 0) ++ List.replicate 3 (quiet 1000000))
    rw [hlog] at hpolls
    have hbound := hpolls
      (by
        have hreadings : readings (firstSleep ⟨4194303 / 4194304, 1⟩ ++ [entry .isSet false,
            entry .now 1000000, entry .poll (.keepPolling, none)]) = [0, 0, 0, 1000000] := rfl
        rw [hreadings]
        decide)
      (sleepsAdvance_firstSleep (by simp [entry]) (by simp [readings, entry, reading]))
    have hfloor : ⌊(4194303 / 4194304 : ℚ) / 1⌋ = 0 := by norm_num
    rw [hfloor] at hbound
    simp [firstSleep, turn, entry, isPoll] at hbound
  · intro hfit
    have htimeout : timedelta (PollingConfig.mk (-2) 1).timeoutSeconds = some (-2000000) := by
      decide +kernel
    have hlog : (call ⟨-2, 1⟩ 2 (quiet 0 :: List.replicate 2 (quiet 0))).1 =
        [entry .now 0, entry .isSet false, entry .now 0] := by
      rw [call_cons htimeout]
      rfl
    have hpolls := hfit 2 (quiet 0 :: List.replicate 2 (quiet 0))
    rw [hlog] at hpolls
    have hnosleep : SleepsAdvance ⟨-2, 1⟩
        ([entry .now 0, entry .isSet false, entry .now 0] : List (Entry ℕ)) := by
      intro before seconds after hlog
      simp [entry, List.cons_eq_append_iff] at hlog
    have hbound := hpolls
      (by
        have hreadings : readings
            ([entry .now 0, entry .isSet false, entry .now 0] : List (Entry ℕ)) = [0, 0] := rfl
        rw [hreadings]
        decide)
      hnosleep
    have hfloor : ⌊(-2 : ℚ) / 1⌋ = -2 := by norm_num
    rw [hfloor] at hbound
    simp [entry, isPoll] at hbound

end MergeQueue.Polling
