import Mathlib.Data.List.Induction
import MergeQueue.CircuitBreaker

/-!
# Every interleaving of calls on a circuit breaker

Callers hold the lock of the breaker for each of its operations, so what they do together
is one sequence of operations.  A result may be reported long after its call was let
through, in whatever state the breaker is by then.
-/

namespace MergeQueue

/-- The operations of a breaker. -/
inductive BreakerCall
  | beforeCall
  | recordSuccess
  | recordFailure
  | reset
  deriving DecidableEq, Repr

/-- How an operation ends: with an error where a call is blocked, or where the message of
that error cannot be written for want of a time. -/
inductive BreakerOutcome
  | returned
  | blocked (retryAfter : ℤ)
  | formatError
  deriving DecidableEq, Repr

/-- An operation of the past. -/
structure BreakerStep where
  call : BreakerCall
  now : ℤ
  before : CircuitBreaker
  after : CircuitBreaker
  deriving DecidableEq, Repr

namespace CircuitBreaker

def perform (cb : CircuitBreaker) (now : ℤ) : BreakerCall → BreakerOutcome × CircuitBreaker
  | .beforeCall =>
      match cb.beforeCall now with
      | .ok cb => (.returned, cb)
      | .error (some retryAfter) => (.blocked retryAfter, cb)
      | .error none => (.formatError, cb)
  | .recordSuccess => (.returned, cb.recordSuccess)
  | .recordFailure => (.returned, cb.recordFailure now)
  | .reset => (.returned, cb.reset)

/-- The breaker after the calls. -/
def afterCalls (cb : CircuitBreaker) (calls : List (BreakerCall × ℤ)) : CircuitBreaker :=
  calls.foldl (fun cb call ↦ (cb.perform call.2 call.1).2) cb

/-- The steps that the calls are. -/
def steps (cb : CircuitBreaker) : List (BreakerCall × ℤ) → List BreakerStep
  | [] => []
  | (call, now) :: calls =>
      let after := (cb.perform now call).2
      { call, now, before := cb, after } :: after.steps calls

variable {cb : CircuitBreaker}

theorem afterCalls_concat (calls : List (BreakerCall × ℤ)) (call : BreakerCall) (now : ℤ) :
    cb.afterCalls (calls ++ [(call, now)]) = ((cb.afterCalls calls).perform now call).2 := by
  simp [afterCalls, List.foldl_append]

theorem steps_concat (calls : List (BreakerCall × ℤ)) (call : BreakerCall) (now : ℤ) :
    cb.steps (calls ++ [(call, now)]) =
      cb.steps calls ++ [{ call, now, before := cb.afterCalls calls
                           after := ((cb.afterCalls calls).perform now call).2 }] := by
  induction calls generalizing cb with
  | nil => rfl
  | cons first calls ih =>
      rw [List.cons_append, steps, steps, ih]
      rfl

/-! ## What an operation does -/

/-- No operation changes the settings of the breaker. -/
theorem perform_settings (cb : CircuitBreaker) (now : ℤ) (call : BreakerCall) :
    (cb.perform now call).2.failureThreshold = cb.failureThreshold ∧
      (cb.perform now call).2.halfOpenTimeout = cb.halfOpenTimeout ∧
      (cb.perform now call).2.successThreshold = cb.successThreshold := by
  cases call with
  | beforeCall =>
      unfold perform beforeCall
      cases cb.state with
      | closed => exact ⟨rfl, rfl, rfl⟩
      | «open» =>
          simp only
          by_cases hreset : cb.shouldAttemptReset now = true
          · rw [if_pos hreset]
            exact ⟨rfl, rfl, rfl⟩
          · rw [if_neg hreset]
            cases cb.timeUntilHalfOpen now <;> exact ⟨rfl, rfl, rfl⟩
      | halfOpen => exact ⟨rfl, rfl, rfl⟩
  | recordSuccess =>
      simp only [perform, recordSuccess, transitionToClosed]
      split_ifs <;> exact ⟨rfl, rfl, rfl⟩
  | recordFailure =>
      simp only [perform, recordFailure, transitionToOpen]
      split_ifs <;> exact ⟨rfl, rfl, rfl⟩
  | reset => exact ⟨rfl, rfl, rfl⟩

/-- An open breaker lets a call through when the timeout has passed since its last failure,
and tells the others how long to wait. -/
theorem beforeCall_open (h : cb.state = .open) {last : ℤ} (hlast : cb.lastFailureTime = some last)
    (now : ℤ) :
    cb.beforeCall now = if cb.halfOpenTimeout ≤ now - last then .ok cb.transitionToHalfOpen
      else .error (some (cb.halfOpenTimeout - (now - last))) := by
  have hreset : cb.shouldAttemptReset now = decide (cb.halfOpenTimeout ≤ now - last) := by
    rw [shouldAttemptReset, hlast, Option.any_some]
  have hwait : cb.timeUntilHalfOpen now = some (max 0 (cb.halfOpenTimeout - (now - last))) := by
    rw [timeUntilHalfOpen, if_pos h, hlast, Option.map_some]
  by_cases hpassed : cb.halfOpenTimeout ≤ now - last
  · simp [beforeCall, h, hreset, hpassed]
  · have hpositive : max 0 (cb.halfOpenTimeout - (now - last)) =
        cb.halfOpenTimeout - (now - last) := max_eq_right (by omega)
    simp [beforeCall, h, hreset, hpassed, hwait, hpositive]

theorem beforeCall_halfOpen (h : cb.state = .halfOpen) (now : ℤ) : cb.beforeCall now = .ok cb := by
  simp [beforeCall, h]

theorem recordFailure_lastFailureTime (now : ℤ) :
    (cb.recordFailure now).lastFailureTime = some now := by
  simp only [recordFailure, transitionToOpen]
  split_ifs <;> rfl

/-- A failure that leaves the breaker closed is counted below the threshold. -/
theorem recordFailure_closed {now : ℤ} (h : (cb.recordFailure now).state = .closed) :
    (cb.recordFailure now).failureCount < (cb.recordFailure now).failureThreshold := by
  simp only [recordFailure, transitionToOpen] at h ⊢
  split_ifs at h ⊢ with hhalf hreached
  exact Nat.lt_of_not_le hreached

theorem recordFailure_not_halfOpen (now : ℤ) : (cb.recordFailure now).state ≠ .halfOpen := by
  simp only [recordFailure, transitionToOpen]
  split_ifs with hhalf hreached
  · simp
  · simp
  · exact hhalf

end CircuitBreaker

/-! ## The record of the calls -/

/-- The moment of the last failure that was recorded. -/
def lastFailure (past : List BreakerStep) : Option ℤ :=
  ((past.filter fun s ↦ s.call = .recordFailure).getLast?).map BreakerStep.now

theorem lastFailure_concat (past : List BreakerStep) (s : BreakerStep) :
    lastFailure (past ++ [s]) =
      if s.call = .recordFailure then some s.now else lastFailure past := by
  by_cases h : s.call = .recordFailure
  · simp [lastFailure, h]
  · simp [lastFailure, h]

/-- How many successes were recorded. -/
def successes (probes : List BreakerStep) : ℕ :=
  probes.countP fun s ↦ s.call = .recordSuccess

/-- The breaker became half-open, and since then it was probed, without a failure. -/
structure Probed (past : List BreakerStep) (entry : BreakerStep) (probes : List BreakerStep) :
    Prop where
  ends : ∃ earlier, past = earlier ++ entry :: probes
  opened : entry.before.state = .open
  entered : entry.after.state = .halfOpen
  stays : ∀ s ∈ probes, s.before.state = .halfOpen ∧ s.call ≠ .recordFailure

theorem Probed.concat {past probes : List BreakerStep} {entry : BreakerStep}
    (h : Probed past entry probes) {s : BreakerStep} (hstate : s.before.state = .halfOpen)
    (hcall : s.call ≠ .recordFailure) : Probed (past ++ [s]) entry (probes ++ [s]) where
  ends := by
    obtain ⟨earlier, rfl⟩ := h.ends
    exact ⟨earlier, by simp⟩
  opened := h.opened
  entered := h.entered
  stays s' hs' := by
    rcases List.mem_append.mp hs' with hold | hnew
    · exact h.stays s' hold
    · rw [List.mem_singleton.mp hnew]
      exact ⟨hstate, hcall⟩

/-! ## What holds of every breaker that is reached -/

/-- What the fields of a breaker have to do with its past. -/
structure BreakerInv (past : List BreakerStep) (cb : CircuitBreaker) : Prop where
  failed : cb.state ≠ .closed →
    ∃ last, cb.lastFailureTime = some last ∧ lastFailure past = some last
  below : cb.state = .closed → cb.failureCount < cb.failureThreshold
  probed : cb.state = .halfOpen →
    ∃ entry probes, Probed past entry probes ∧ cb.successCount = successes probes

namespace BreakerInv

variable {past : List BreakerStep} {cb : CircuitBreaker}

/-- A call that is let through or blocked. -/
theorem beforeCall (h : BreakerInv past cb) (now : ℤ) {s : BreakerStep}
    (hs : s = { call := .beforeCall, now, before := cb, after := (cb.perform now .beforeCall).2 }) :
    BreakerInv (past ++ [s]) s.after := by
  have hlast : lastFailure (past ++ [s]) = lastFailure past := by
    rw [lastFailure_concat, hs, if_neg (by simp)]
  cases hstate : cb.state with
  | closed =>
      have hafter : s.after = cb := by
        rw [hs]
        simp [CircuitBreaker.perform, CircuitBreaker.beforeCall_of_closed hstate]
      rw [hafter]
      refine ⟨fun hopen ↦ absurd hstate hopen, h.below, fun hhalf ↦ ?_⟩
      rw [hstate] at hhalf
      cases hhalf
  | «open» =>
      obtain ⟨last, hfailed, hpast⟩ := h.failed (by simp [hstate])
      by_cases hpassed : cb.halfOpenTimeout ≤ now - last
      · have hafter : s.after = cb.transitionToHalfOpen := by
          rw [hs]
          simp [CircuitBreaker.perform, CircuitBreaker.beforeCall_open hstate hfailed, hpassed]
        have hprobed : Probed (past ++ [s]) s [] :=
          ⟨⟨past, rfl⟩, by rw [hs]; exact hstate, by rw [hafter]; rfl, fun _ h ↦ by simp at h⟩
        rw [hafter]
        exact ⟨fun _ ↦ ⟨last, hfailed, hlast.trans hpast⟩, fun hclosed ↦ (by cases hclosed),
          fun _ ↦ ⟨s, [], hprobed, rfl⟩⟩
      · have hafter : s.after = cb := by
          rw [hs]
          simp [CircuitBreaker.perform, CircuitBreaker.beforeCall_open hstate hfailed, hpassed]
        rw [hafter]
        refine ⟨fun _ ↦ ⟨last, hfailed, hlast.trans hpast⟩, h.below, fun hhalf ↦ ?_⟩
        rw [hstate] at hhalf
        cases hhalf
  | halfOpen =>
      have hafter : s.after = cb := by
        rw [hs]
        simp [CircuitBreaker.perform, CircuitBreaker.beforeCall_halfOpen hstate]
      rw [hafter]
      refine ⟨fun hopen ↦ ?_, h.below, fun hhalf ↦ ?_⟩
      · obtain ⟨last, hfailed, hpast⟩ := h.failed hopen
        exact ⟨last, hfailed, hlast.trans hpast⟩
      · obtain ⟨entry, probes, hprobed, hcount⟩ := h.probed hhalf
        refine ⟨entry, probes ++ [s], hprobed.concat (by rw [hs]; exact hhalf) (by simp [hs]), ?_⟩
        rw [hcount, successes, successes, List.countP_append, hs]
        simp

/-- A success closes a half-open breaker when it is the last one needed. -/
theorem recordSuccess (h : BreakerInv past cb) (now : ℤ) (hthreshold : 1 ≤ cb.failureThreshold)
    {s : BreakerStep}
    (hs : s = { call := .recordSuccess, now, before := cb, after := cb.recordSuccess }) :
    BreakerInv (past ++ [s]) s.after := by
  have hlast : lastFailure (past ++ [s]) = lastFailure past := by
    rw [lastFailure_concat, hs, if_neg (by simp)]
  by_cases hhalf : cb.state = .halfOpen
  · by_cases hreached : cb.successThreshold ≤ cb.successCount + 1
    · have hafter : s.after =
          { cb with successCount := cb.successCount + 1 }.transitionToClosed := by
        rw [hs]
        simp [CircuitBreaker.recordSuccess, hhalf, hreached]
      rw [hafter]
      exact ⟨fun hopen ↦ absurd rfl hopen, fun _ ↦ hthreshold, fun hprobed ↦ by cases hprobed⟩
    · have hafter : s.after = { cb with successCount := cb.successCount + 1 } := by
        rw [hs]
        simp [CircuitBreaker.recordSuccess, hhalf, hreached]
      rw [hafter]
      refine ⟨fun _ ↦ ?_, fun hclosed ↦ ?_, fun _ ↦ ?_⟩
      · obtain ⟨last, hfailed, hpast⟩ := h.failed (by simp [hhalf])
        exact ⟨last, hfailed, hlast.trans hpast⟩
      · rw [show cb.state = .closed from hclosed] at hhalf
        cases hhalf
      · obtain ⟨entry, probes, hprobed, hcount⟩ := h.probed hhalf
        refine ⟨entry, probes ++ [s], hprobed.concat (by rw [hs]; exact hhalf) (by simp [hs]), ?_⟩
        rw [successes, List.countP_append, hs]
        simpa [successes] using hcount
  · have hafter : s.after = { cb with failureCount := 0 } := by
      rw [hs]
      simp [CircuitBreaker.recordSuccess, hhalf]
    rw [hafter]
    refine ⟨fun hopen ↦ ?_, fun _ ↦ hthreshold, fun hprobed ↦ absurd hprobed hhalf⟩
    obtain ⟨last, hfailed, hpast⟩ := h.failed hopen
    exact ⟨last, hfailed, hlast.trans hpast⟩

theorem recordFailure (now : ℤ) {s : BreakerStep}
    (hs : s = { call := .recordFailure, now, before := cb, after := cb.recordFailure now }) :
    BreakerInv (past ++ [s]) s.after := by
  have hlast : lastFailure (past ++ [s]) = some now := by
    rw [lastFailure_concat, hs, if_pos rfl]
  have hafter : s.after = cb.recordFailure now := by rw [hs]
  rw [hafter]
  exact ⟨fun _ ↦ ⟨now, cb.recordFailure_lastFailureTime now, hlast⟩,
    CircuitBreaker.recordFailure_closed,
    fun hhalf ↦ absurd hhalf (cb.recordFailure_not_halfOpen now)⟩

theorem reset (hthreshold : 1 ≤ cb.failureThreshold) : BreakerInv past cb.reset :=
  ⟨fun hopen ↦ absurd rfl hopen, fun _ ↦ hthreshold, fun hhalf ↦ by cases hhalf⟩

/-- Every operation keeps the relation between the fields and the past. -/
theorem perform (h : BreakerInv past cb) (hthreshold : 1 ≤ cb.failureThreshold)
    (call : BreakerCall) (now : ℤ) :
    BreakerInv (past ++ [{ call, now, before := cb, after := (cb.perform now call).2 }])
      (cb.perform now call).2 := by
  cases call with
  | beforeCall => exact h.beforeCall now rfl
  | recordSuccess => exact h.recordSuccess now hthreshold rfl
  | recordFailure => exact recordFailure now rfl
  | reset => exact reset hthreshold

end BreakerInv

section Run

variable {cb : CircuitBreaker} {calls : List (BreakerCall × ℤ)}

theorem CircuitBreaker.afterCalls_settings :
    (cb.afterCalls calls).failureThreshold = cb.failureThreshold ∧
      (cb.afterCalls calls).halfOpenTimeout = cb.halfOpenTimeout ∧
      (cb.afterCalls calls).successThreshold = cb.successThreshold := by
  induction calls using List.reverseRecOn with
  | nil => exact ⟨rfl, rfl, rfl⟩
  | append_singleton calls call ih =>
      obtain ⟨hthreshold, htimeout, hsuccesses⟩ :=
        (cb.afterCalls calls).perform_settings call.2 call.1
      rw [afterCalls_concat]
      exact ⟨hthreshold.trans ih.1, htimeout.trans ih.2.1, hsuccesses.trans ih.2.2⟩

/-- A breaker that is reached from a new one. -/
theorem breakerInv_afterCalls (hthreshold : 1 ≤ cb.failureThreshold) (hclosed : cb.state = .closed)
    (hcount : cb.failureCount = 0) : BreakerInv (cb.steps calls) (cb.afterCalls calls) := by
  induction calls using List.reverseRecOn with
  | nil =>
      refine ⟨fun hopen ↦ absurd hclosed hopen, fun _ ↦ ?_, fun hhalf ↦ ?_⟩
      · exact lt_of_eq_of_lt hcount hthreshold
      · rw [show cb.state = .halfOpen from hhalf] at hclosed
        cases hclosed
  | append_singleton calls call ih =>
      rw [CircuitBreaker.afterCalls_concat, CircuitBreaker.steps_concat]
      have hsettings : (cb.afterCalls calls).failureThreshold = cb.failureThreshold :=
        CircuitBreaker.afterCalls_settings.1
      exact ih.perform (hsettings ▸ hthreshold) call.1 call.2

/-- The failures of the past are not of the future. -/
theorem lastFailure_le {last now : ℤ} (hclock : ∀ call ∈ calls, call.2 ≤ now)
    (h : lastFailure (cb.steps calls) = some last) : last ≤ now := by
  induction calls using List.reverseRecOn with
  | nil => cases h
  | append_singleton calls call ih =>
      rw [CircuitBreaker.steps_concat, lastFailure_concat] at h
      split_ifs at h
      · cases h
        exact hclock call (by simp)
      · exact ih (fun c hc ↦ hclock c (List.mem_append_left _ hc)) h

end Run

/-! ## The guarantees -/

/-- What the next operation on a breaker with these settings finds and does. -/
structure BreakerGuards (failureThreshold : ℕ) (halfOpenTimeout : ℤ) (past : List BreakerStep)
    (cb : CircuitBreaker) (call : BreakerCall) (now : ℤ) : Prop where
  failed : cb.state = .open → cb.lastFailureTime.isSome
  message : (cb.perform now call).1 ≠ .formatError
  below : cb.state = .closed → cb.failureCount < failureThreshold
  blocks : cb.state = .open → call = .beforeCall → ∃ last, lastFailure past = some last ∧
    last ≤ now ∧ (now - last < halfOpenTimeout →
      cb.perform now call = (.blocked (halfOpenTimeout - (now - last)), cb))
  reopens : cb.state = .halfOpen → call = .recordFailure → (cb.perform now call).2.state = .open

/-- A half-open breaker closes only with the last success that is needed, when none of its
probes has failed. -/
def ClosesBySuccesses (successThreshold : ℕ) (past : List BreakerStep) (cb : CircuitBreaker)
    (call : BreakerCall) (now : ℤ) : Prop :=
  cb.state = .halfOpen → (cb.perform now call).2.state = .closed →
    ∃ entry probes, Probed past entry probes ∧ call = .recordSuccess ∧
      successThreshold ≤ successes probes + 1

section Guards

variable {past : List BreakerStep} {cb : CircuitBreaker}

theorem BreakerInv.message (h : BreakerInv past cb) (call : BreakerCall) (now : ℤ) :
    (cb.perform now call).1 ≠ .formatError := by
  cases call with
  | beforeCall =>
      unfold CircuitBreaker.perform
      cases hstate : cb.state with
      | closed => simp [CircuitBreaker.beforeCall_of_closed hstate]
      | «open» =>
          obtain ⟨last, hfailed, -⟩ := h.failed (by simp [hstate])
          simp only [CircuitBreaker.beforeCall_open hstate hfailed]
          split_ifs <;> simp
      | halfOpen => simp [CircuitBreaker.beforeCall_halfOpen hstate]
  | recordSuccess => simp [CircuitBreaker.perform]
  | recordFailure => simp [CircuitBreaker.perform]
  | reset => simp [CircuitBreaker.perform]

theorem BreakerInv.closesBySuccesses (h : BreakerInv past cb) {call : BreakerCall} {now : ℤ}
    (hcall : call ≠ .reset) : ClosesBySuccesses cb.successThreshold past cb call now := by
  intro hhalf hcloses
  obtain ⟨entry, probes, hprobed, hcount⟩ := h.probed hhalf
  cases call with
  | beforeCall =>
      simp only [CircuitBreaker.perform, CircuitBreaker.beforeCall_halfOpen hhalf, hhalf] at hcloses
      cases hcloses
  | recordSuccess =>
      refine ⟨entry, probes, hprobed, rfl, hcount ▸ ?_⟩
      by_contra hfew
      simp only [CircuitBreaker.perform, CircuitBreaker.recordSuccess, hhalf, if_true,
        if_neg hfew] at hcloses
      cases hcloses
  | recordFailure =>
      simp only [CircuitBreaker.perform, CircuitBreaker.recordFailure, hhalf, if_true,
        CircuitBreaker.transitionToOpen] at hcloses
      cases hcloses
  | reset => exact absurd rfl hcall

end Guards

/-- Whatever callers did with a new breaker on a clock that does not go back, its next
operation keeps the guarantees, and only a success or a reset by hand closes it when it is
half-open. -/
theorem breaker_guards (failureThreshold successThreshold : ℕ) (halfOpenTimeout : ℤ)
    (hthreshold : 1 ≤ failureThreshold) (calls : List (BreakerCall × ℤ)) (call : BreakerCall)
    (now : ℤ) (hclock : (calls ++ [(call, now)]).Pairwise fun x y ↦ x.2 ≤ y.2) :
    let cb : CircuitBreaker := { failureThreshold, halfOpenTimeout, successThreshold }
    BreakerGuards failureThreshold halfOpenTimeout (cb.steps calls) (cb.afterCalls calls) call
        now ∧
      (call = .reset ∨
        ClosesBySuccesses successThreshold (cb.steps calls) (cb.afterCalls calls) call now) := by
  intro cb
  obtain ⟨hfailures, htimeout, hsuccesses⟩ : (cb.afterCalls calls).failureThreshold =
      failureThreshold ∧ (cb.afterCalls calls).halfOpenTimeout = halfOpenTimeout ∧
      (cb.afterCalls calls).successThreshold = successThreshold :=
    CircuitBreaker.afterCalls_settings
  have hinv : BreakerInv (cb.steps calls) (cb.afterCalls calls) :=
    breakerInv_afterCalls hthreshold rfl rfl
  have hpast : ∀ earlier ∈ calls, earlier.2 ≤ now := fun earlier hearlier ↦
    (List.pairwise_append.mp hclock).2.2 earlier hearlier (call, now) (by simp)
  refine ⟨⟨fun hopen ↦ ?_, hinv.message call now, fun hclosed ↦ ?_,
    fun hopen hcall ↦ ?_, fun hhalf hcall ↦ ?_⟩, ?_⟩
  · obtain ⟨last, hfailed, -⟩ := hinv.failed (by simp [hopen])
    rw [hfailed, Option.isSome_some]
  · rw [← hfailures]
    exact hinv.below hclosed
  · obtain ⟨last, hfailed, hlast⟩ := hinv.failed (by simp [hopen])
    refine ⟨last, hlast, lastFailure_le hpast hlast, fun hearly ↦ ?_⟩
    rw [hcall, CircuitBreaker.perform, CircuitBreaker.beforeCall_open hopen hfailed,
      htimeout, if_neg (by omega)]
  · rw [hcall]
    simp [CircuitBreaker.perform, CircuitBreaker.recordFailure, hhalf,
      CircuitBreaker.transitionToOpen]
  · by_cases hcall : call = .reset
    · exact Or.inl hcall
    · exact Or.inr (hsuccesses ▸ hinv.closesBySuccesses hcall)

/-- A failure opens the breaker, and after the timeout a call is let through. -/
def probingCalls : List (BreakerCall × ℤ) := [(.recordFailure, 0), (.beforeCall, 10)]

theorem breaker_guards_probing :
    let cb : CircuitBreaker :=
      { failureThreshold := 1, halfOpenTimeout := 10, successThreshold := 1 }
    (cb.afterCalls probingCalls).state = .halfOpen ∧
      ClosesBySuccesses 1 (cb.steps probingCalls) (cb.afterCalls probingCalls) .recordSuccess
        12 := by
  refine ⟨by decide, ?_⟩
  have hguards := breaker_guards 1 1 10 (Nat.le_refl 1) probingCalls .recordSuccess 12
    (by simp [probingCalls])
  exact hguards.2.resolve_left (by simp)

/-- A reset closes a half-open breaker without any success. -/
theorem reset_closes_half_open :
    ¬ ∀ (failureThreshold successThreshold : ℕ) (halfOpenTimeout : ℤ), 1 ≤ failureThreshold →
        ∀ (calls : List (BreakerCall × ℤ)) (call : BreakerCall) (now : ℤ),
          ((calls ++ [(call, now)]).Pairwise fun x y ↦ x.2 ≤ y.2) →
            let cb : CircuitBreaker := { failureThreshold, halfOpenTimeout, successThreshold }
            BreakerGuards failureThreshold halfOpenTimeout (cb.steps calls) (cb.afterCalls calls)
                call now ∧
              ClosesBySuccesses successThreshold (cb.steps calls) (cb.afterCalls calls) call
                now := by
  intro hclaim
  obtain ⟨-, hcloses⟩ := hclaim 1 1 10 (Nat.le_refl 1) probingCalls .reset 12
    (by simp [probingCalls])
  obtain ⟨entry, probes, -, hcall, -⟩ := hcloses (by decide) (by decide)
  cases hcall

end MergeQueue
