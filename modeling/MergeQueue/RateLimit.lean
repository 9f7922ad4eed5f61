import MergeQueue.Lib.PyInt
import Mathlib.Data.Int.Order.Basic
import Mathlib.Tactic.IntervalCases

/-!
# The rate limit and the pauses of the scheduler

Every response may carry the state of the rate limit.  The client keeps what it was told
last, and the scheduler pauses as long as that is critical.  Nothing but a response changes
it, and no response arrives from a scheduler that pauses.
-/

namespace MergeQueue

/-! ## Numbers -/

inductive ArithmeticError
  | valueError
  | overflowError
  deriving DecidableEq, Repr

/-- From this size on an integer is rounded beyond the largest float. -/
def floatBound : ℕ := 2 ^ 1024 - 2 ^ 970

/-- The integer can be converted to a float. -/
abbrev FitsFloat (n : ℤ) : Prop := n.natAbs < floatBound

/-- The quotient of the integers is not beyond the largest float. -/
abbrev QuotientFits (num den : ℤ) : Prop := num.natAbs < floatBound * den.natAbs

/-- `1.0 - remaining / limit > threshold` for floats, where the quotient fits. -/
abbrev RatioTest := ℤ → ℤ → Bool

/-! ## What the client knows -/

/-- The rate limit headers of a response. -/
structure RateHeaders where
  limit : Option String := none
  remaining : Option String := none
  reset : Option String := none
  deriving DecidableEq, Repr

structure RateLimitState where
  limit : Option ℤ := none
  remaining : Option ℤ := none
  resetAt : Option ℤ := none
  deriving DecidableEq, Repr

/-- `int(header) if header else None`. -/
def headerInt (header : Option String) : Except ArithmeticError (Option ℤ) :=
  match header.filter (· ≠ "") with
  | none => .ok none
  | some text =>
      match pyInt text with
      | none => .error .valueError
      | some n => .ok (some n)

def parseRateLimitHeaders (headers : RateHeaders) :
    Except ArithmeticError (Option ℤ × Option ℤ × Option ℤ) := do
  let limit ← headerInt headers.limit
  let remaining ← headerInt headers.remaining
  let reset ← headerInt headers.reset
  return (limit, remaining, reset)

namespace RateLimitState

variable (state : RateLimitState)

/-- Whether the usage ratio is known and exceeds a threshold. -/
def exceedsThreshold (test : RatioTest) : Except ArithmeticError Bool :=
  match state.limit, state.remaining with
  | some limit, some remaining =>
      if limit = 0 then .ok false
      else if QuotientFits remaining limit then .ok (test remaining limit)
      else .error .overflowError
  | _, _ => .ok false

/-- The microseconds until the limit is reset. -/
def secondsUntilReset (now : ℤ) : Except ArithmeticError (Option ℤ) :=
  match state.resetAt with
  | none => .ok none
  | some resetAt =>
      if FitsFloat resetAt then .ok (some (max 0 (resetAt * 1000000 - now)))
      else .error .overflowError

end RateLimitState

/-- The thresholds of the settings. -/
structure RateThresholds where
  warning : RatioTest
  critical : RatioTest

section Client

variable (thresholds : RateThresholds)

/-- The warnings about a new state compute what they tell. -/
def logRateLimit (now : ℤ) (state : RateLimitState) : Except ArithmeticError Unit := do
  if ← state.exceedsThreshold thresholds.critical then
    let _ ← state.secondsUntilReset now
  else if ← state.exceedsThreshold thresholds.warning then
    let _ ← state.secondsUntilReset now

/-- Takes in the headers of a response.  The state is replaced before a warning can fail. -/
def updateRateLimitState (now : ℤ) (headers : RateHeaders) (state : RateLimitState) :
    Except ArithmeticError Unit × RateLimitState :=
  match parseRateLimitHeaders headers with
  | .error e => (.error e, state)
  | .ok (limit, remaining, resetAt) =>
      if limit = none ∧ remaining = none then (.ok (), state)
      else
        let state : RateLimitState := { limit, remaining, resetAt }
        (logRateLimit thresholds now state, state)

/-- Whether polling should pause, and for how long; an unknown time and none at all stand for
a minute. -/
def shouldPauseForRateLimit (now : ℤ) (state : RateLimitState) :
    Except ArithmeticError (Option ℤ) := do
  if ← state.exceedsThreshold thresholds.critical then
    match ← state.secondsUntilReset now with
    | none => return some 60000000
    | some pause => return some (if pause = 0 then 60000000 else pause)
  else return none

end Client

/-! ## The loop of the scheduler -/

/-- The scheduler checks the rate limit, and pauses or polls.  Until its next check the client
gets responses, each with the moment at which it is taken in. -/
structure PollingRound where
  now : ℤ
  responses : List (ℤ × RateHeaders) := []

section Polling

variable (thresholds : RateThresholds) (rounds : ℕ → PollingRound)

/-- What responses make of what the client knows. -/
def takeIn (state : RateLimitState) (responses : List (ℤ × RateHeaders)) : RateLimitState :=
  responses.foldl
    (fun state response ↦ (updateRateLimitState thresholds response.1 response.2 state).2) state

/-- What the client knows when the scheduler checks. -/
def knownAt : ℕ → RateLimitState
  | 0 => {}
  | n + 1 => takeIn thresholds (knownAt n) (rounds n).responses

/-- What the client knows when it has taken in `k` responses since the check. -/
def knownAfter (n k : ℕ) : RateLimitState :=
  takeIn thresholds (knownAt thresholds rounds n) ((rounds n).responses.take k)

def check (n : ℕ) : Except ArithmeticError (Option ℤ) :=
  shouldPauseForRateLimit thresholds (rounds n).now (knownAt thresholds rounds n)

/-- No earlier check raised, so the loop comes to this one. -/
def Reached (n : ℕ) : Prop := ∀ m < n, ∃ pause, check thresholds rounds m = .ok pause

/-- The check finds a critical reading. -/
def FindsCritical (n : ℕ) : Prop :=
  (knownAt thresholds rounds n).exceedsThreshold thresholds.critical = .ok true

/-- Nobody else uses the client, so no response arrives during a pause. -/
def SoleCaller : Prop :=
  ∀ n pause, check thresholds rounds n = .ok (some pause) → (rounds n).responses = []

/-- The moment from which the client knows what it knows after `k` responses. -/
def knownFrom (n k : ℕ) : ℤ :=
  (((rounds n).responses.take k).getLast?.map Prod.fst).elim (rounds n).now (max (rounds n).now)

/-- The moment at which that is replaced, or the moment `last` if it comes first. -/
def knownUntil (n k : ℕ) (last : ℤ) : ℤ :=
  ((rounds n).responses[k]?.map Prod.fst).elim last (min last)

/-- The scheduler pauses at the moment `t`, when `k` responses have been taken in since its
check. -/
def PausedAt (n k : ℕ) (t : ℤ) : Prop :=
  ∃ pause, check thresholds rounds n = .ok (some pause) ∧ knownFrom rounds n k ≤ t ∧
    t < knownUntil rounds n k ((rounds n).now + pause)

/-- Every pause lasts at most to the reset that is recorded when it begins, the scheduler does
not pause at a moment when the reset that is recorded then has passed, and a scheduler that is
the only caller polls again after a critical reading. -/
structure PausesEnd : Prop where
  bounded : ∀ n pause resetAt, Reached thresholds rounds n →
    check thresholds rounds n = .ok (some pause) →
    (knownAt thresholds rounds n).resetAt = some resetAt →
    (rounds n).now + pause ≤ resetAt * 1000000
  ahead : ∀ n k t resetAt, Reached thresholds rounds n → PausedAt thresholds rounds n k t →
    (knownAfter thresholds rounds n k).resetAt = some resetAt → t < resetAt * 1000000
  resumes : SoleCaller thresholds rounds → ∀ n, Reached thresholds rounds n →
    FindsCritical thresholds rounds n →
    ∃ m, n < m ∧ Reached thresholds rounds m ∧ check thresholds rounds m = .ok none

/-- The recorded reset, or a minute after the check where none is recorded. -/
def resetOrMinute (n : ℕ) : ℤ :=
  match (knownAt thresholds rounds n).resetAt with
  | some resetAt => resetAt * 1000000
  | none => (rounds n).now + 60000000

/-- The check finds a critical reading, and the time that is left can be computed. -/
structure Pauses (n : ℕ) : Prop where
  reached : Reached thresholds rounds n
  critical : FindsCritical thresholds rounds n
  fits : ∀ resetAt, (knownAt thresholds rounds n).resetAt = some resetAt → FitsFloat resetAt

end Polling

section Facts

variable {thresholds : RateThresholds} {rounds : ℕ → PollingRound} {n : ℕ}

/-- A pause comes from a critical reading, and ends with the recorded reset unless that has
passed. -/
theorem check_pause (hreached : Reached thresholds rounds n) {pause : ℤ}
    (h : check thresholds rounds n = .ok (some pause)) :
    Pauses thresholds rounds n ∧ 0 < pause ∧
      ((∀ resetAt, (knownAt thresholds rounds n).resetAt = some resetAt →
        (rounds n).now < resetAt * 1000000) →
          (rounds n).now + pause = resetOrMinute thresholds rounds n) := by
  unfold check shouldPauseForRateLimit at h
  unfold resetOrMinute
  cases hcritical : (knownAt thresholds rounds n).exceedsThreshold thresholds.critical with
  | error e =>
      rw [hcritical] at h
      cases h
  | ok critical =>
      rw [hcritical] at h
      cases critical with
      | false => cases h
      | true =>
          cases hreset : (knownAt thresholds rounds n).resetAt with
          | none =>
              simp only [RateLimitState.secondsUntilReset, hreset] at h
              cases h
              refine ⟨⟨hreached, hcritical, fun resetAt hsome ↦ ?_⟩, by decide, fun _ ↦ rfl⟩
              rw [hreset] at hsome
              cases hsome
          | some resetAt =>
              simp only [RateLimitState.secondsUntilReset, hreset] at h
              by_cases hfits : FitsFloat resetAt
              · rw [if_pos hfits] at h
                simp only [bind, Except.bind, if_true] at h
                have hpause := (Option.some.inj (Except.ok.inj h)).symm
                refine ⟨⟨hreached, hcritical, fun resetAt' hsome ↦ ?_⟩, ?_, fun hbefore ↦ ?_⟩
                · cases hreset.symm.trans hsome
                  exact hfits
                · rw [hpause]
                  split_ifs <;> omega
                · have hnow := hbefore resetAt rfl
                  rw [hpause]
                  simp only
                  split_ifs <;> omega
              · rw [if_neg hfits] at h
                cases h

theorem exists_pause (h : Pauses thresholds rounds n) :
    ∃ pause, check thresholds rounds n = .ok (some pause) := by
  have hcritical := h.critical
  unfold FindsCritical at hcritical
  unfold check shouldPauseForRateLimit
  cases hreset : (knownAt thresholds rounds n).resetAt with
  | none =>
      simp only [hcritical, RateLimitState.secondsUntilReset, hreset]
      exact ⟨_, rfl⟩
  | some resetAt =>
      simp only [hcritical, RateLimitState.secondsUntilReset, hreset,
        if_pos (h.fits resetAt hreset)]
      exact ⟨_, rfl⟩

theorem not_check_none (hcritical : FindsCritical thresholds rounds n) :
    check thresholds rounds n ≠ .ok none := by
  unfold FindsCritical at hcritical
  unfold check shouldPauseForRateLimit
  rw [hcritical]
  intro h
  simp only [bind, Except.bind, if_true] at h
  cases hseconds : (knownAt thresholds rounds n).secondsUntilReset (rounds n).now with
  | error e =>
      rw [hseconds] at h
      cases h
  | ok pause =>
      rw [hseconds] at h
      cases pause with
      | none => cases h
      | some pause => cases h

theorem knownUntil_le (rounds : ℕ → PollingRound) (n k : ℕ) (last : ℤ) :
    knownUntil rounds n k last ≤ last := by
  unfold knownUntil
  cases (rounds n).responses[k]? with
  | none => exact le_rfl
  | some response => exact min_le_left _ _

/-- The only caller is told nothing new once it has found a critical reading. -/
theorem stays_critical (hsole : SoleCaller thresholds rounds)
    (hcritical : FindsCritical thresholds rounds n) {m : ℕ} (hm : n ≤ m)
    (hreached : Reached thresholds rounds m) : FindsCritical thresholds rounds m := by
  induction m, hm using Nat.le_induction with
  | base => exact hcritical
  | succ m hm ih =>
      have hbefore : FindsCritical thresholds rounds m :=
        ih fun k hk ↦ hreached k (Nat.lt_succ_of_lt hk)
      obtain ⟨answer, hanswer⟩ := hreached m (Nat.lt_succ_self m)
      cases answer with
      | none => exact absurd hanswer (not_check_none hbefore)
      | some pause =>
          have hquiet := hsole m pause hanswer
          have hsame : knownAt thresholds rounds (m + 1) = knownAt thresholds rounds m := by
            rw [knownAt, hquiet]
            rfl
          unfold FindsCritical
          rw [hsame]
          exact hbefore

end Facts

/-- The pauses end exactly in the runs where no check finds a critical reading whose reset has
passed, no response of a pause records a reset that passes before the pause ends or another
response replaces it, and an only caller never finds a critical reading at all. -/
theorem pausesEnd_iff (thresholds : RateThresholds) (rounds : ℕ → PollingRound) :
    PausesEnd thresholds rounds ↔
      (∀ n resetAt, Pauses thresholds rounds n →
        (knownAt thresholds rounds n).resetAt = some resetAt →
        (rounds n).now < resetAt * 1000000) ∧
      (∀ n k resetAt, Pauses thresholds rounds n → 0 < k →
        (knownAfter thresholds rounds n k).resetAt = some resetAt →
        knownFrom rounds n k < knownUntil rounds n k (resetOrMinute thresholds rounds n) →
        knownUntil rounds n k (resetOrMinute thresholds rounds n) ≤ resetAt * 1000000) ∧
      (SoleCaller thresholds rounds → ∀ n, Reached thresholds rounds n →
        ¬ FindsCritical thresholds rounds n) := by
  constructor
  · intro h
    have hbefore : ∀ n resetAt, Pauses thresholds rounds n →
        (knownAt thresholds rounds n).resetAt = some resetAt →
        (rounds n).now < resetAt * 1000000 := by
      intro n resetAt hpauses hreset
      obtain ⟨pause, hpause⟩ := exists_pause hpauses
      have hbounded := h.bounded n pause resetAt hpauses.reached hpause hreset
      have hpositive := (check_pause hpauses.reached hpause).2.1
      omega
    refine ⟨hbefore, fun n k resetAt hpauses _ hreset hwindow ↦ ?_,
      fun hsole n hreached hcritical ↦ ?_⟩
    · obtain ⟨pause, hpause⟩ := exists_pause hpauses
      have hend := (check_pause hpauses.reached hpause).2.2 fun r ↦ hbefore n r hpauses
      by_contra hpasses
      -- the reset passes while it is the recorded one
      let t := max (knownFrom rounds n k) (resetAt * 1000000)
      have ht : t < knownUntil rounds n k (resetOrMinute thresholds rounds n) :=
        max_lt hwindow (not_le.mp hpasses)
      have hpaused : PausedAt thresholds rounds n k t :=
        ⟨pause, hpause, le_max_left _ _, by rwa [hend]⟩
      exact absurd (h.ahead n k t resetAt hpauses.reached hpaused hreset)
        (not_lt.mpr (le_max_right _ _))
    · obtain ⟨m, hm, hreachedm, hpolls⟩ := h.resumes hsole n hreached hcritical
      exact not_check_none (stays_critical hsole hcritical (Nat.le_of_lt hm) hreachedm) hpolls
  · rintro ⟨hbefore, hkept, hnone⟩
    have hend : ∀ n pause, Reached thresholds rounds n →
        check thresholds rounds n = .ok (some pause) →
        (rounds n).now + pause = resetOrMinute thresholds rounds n := by
      intro n pause hreached hpause
      obtain ⟨hpauses, -, hend⟩ := check_pause hreached hpause
      exact hend fun resetAt ↦ hbefore n resetAt hpauses
    constructor
    · intro n pause resetAt hreached hpause hreset
      rw [hend n pause hreached hpause, resetOrMinute, hreset]
    · rintro n k t resetAt hreached ⟨pause, hpause, hfrom, huntil⟩ hreset
      rw [hend n pause hreached hpause] at huntil
      cases k with
      | zero =>
          have hreset : (knownAt thresholds rounds n).resetAt = some resetAt := hreset
          refine huntil.trans_le ?_
          rw [resetOrMinute, hreset]
          exact knownUntil_le rounds n 0 _
      | succ k =>
          have hpauses := (check_pause hreached hpause).1
          exact huntil.trans_le
            (hkept n (k + 1) resetAt hpauses (Nat.succ_pos k) hreset (hfrom.trans_lt huntil))
    · intro hsole n hreached hcritical
      exact absurd hcritical (hnone hsole n hreached)

/-! ## A quota that is used up -/

/-- Ninety-five percent of the quota, for a limit that is positive. -/
def usedBeyond (percent : ℤ) : RatioTest := fun remaining limit ↦
  decide (remaining * 100 < limit * (100 - percent))

def defaultThresholds : RateThresholds where
  warning := usedBeyond 80
  critical := usedBeyond 95

/-- The first poll uses up the quota, which is reset a thousand seconds after the epoch.  The
scheduler pauses for the last ten seconds, and then a minute at a time. -/
def usedUp : ℕ → PollingRound
  | 0 =>
      { now := 980000000
        responses := [(985000000,
          { limit := some "100", remaining := some "0", reset := some "1000" })] }
  | 1 => { now := 990000000 }
  | n + 2 => { now := 1000000000 + n * 60000000 }

theorem pause_after_the_reset :
    ¬ ∀ (thresholds : RateThresholds) (rounds : ℕ → PollingRound), PausesEnd thresholds rounds := by
  intro hclaim
  have hreached : Reached defaultThresholds usedUp 2 := by
    intro m hm
    interval_cases m
    · exact ⟨none, by decide +kernel⟩
    · exact ⟨some 10000000, by decide +kernel⟩
  have hpause : check defaultThresholds usedUp 2 = .ok (some 60000000) := by decide +kernel
  have hbounded := (hclaim defaultThresholds usedUp).bounded 2 60000000 1000 hreached hpause
    (by decide +kernel)
  exact absurd hbounded (by decide)

end MergeQueue
