import Mathlib.Tactic.Common
import Mathlib.Data.Int.Order.Basic

/-!
# The circuit breaker

The breaker counts failures it is told about and blocks calls while it is
open.  Instants and the timeout are microseconds.
-/

namespace MergeQueue

inductive CircuitState
  | closed
  | «open»
  | halfOpen
  deriving DecidableEq, Repr

structure CircuitBreaker where
  failureThreshold : ℕ := 5
  halfOpenTimeout : ℤ := 30000000
  successThreshold : ℕ := 1
  state : CircuitState := .closed
  failureCount : ℕ := 0
  successCount : ℕ := 0
  lastFailureTime : Option ℤ := none
  deriving DecidableEq, Repr

namespace CircuitBreaker

variable (cb : CircuitBreaker)

/-- Enough time has passed to try half-open. -/
def shouldAttemptReset (now : ℤ) : Bool :=
  cb.lastFailureTime.any fun last ↦ decide (cb.halfOpenTimeout ≤ now - last)

/-- The time until the circuit may attempt half-open. -/
def timeUntilHalfOpen (now : ℤ) : Option ℤ :=
  if cb.state = .open then
    cb.lastFailureTime.map fun last ↦ max 0 (cb.halfOpenTimeout - (now - last))
  else none

def transitionToOpen : CircuitBreaker := { cb with state := .open, successCount := 0 }

def transitionToHalfOpen : CircuitBreaker := { cb with state := .halfOpen, successCount := 0 }

def transitionToClosed : CircuitBreaker :=
  { cb with state := .closed, failureCount := 0, successCount := 0, lastFailureTime := none }

def recordSuccess : CircuitBreaker :=
  if cb.state = .halfOpen then
    let cb := { cb with successCount := cb.successCount + 1 }
    if cb.successThreshold ≤ cb.successCount then cb.transitionToClosed else cb
  else { cb with failureCount := 0 }

def recordFailure (now : ℤ) : CircuitBreaker :=
  let cb := { cb with failureCount := cb.failureCount + 1, lastFailureTime := some now }
  if cb.state = .halfOpen then cb.transitionToOpen
  else if cb.failureThreshold ≤ cb.failureCount then cb.transitionToOpen
  else cb

/-- Lets a call proceed, or blocks it with the time until the next attempt. -/
def beforeCall (now : ℤ) : Except (Option ℤ) CircuitBreaker :=
  match cb.state with
  | .closed => .ok cb
  | .open =>
      if cb.shouldAttemptReset now then .ok cb.transitionToHalfOpen
      else .error (cb.timeUntilHalfOpen now)
  | .halfOpen => .ok cb

/-- Back to the initial closed state, by hand. -/
def reset : CircuitBreaker :=
  { cb with state := .closed, failureCount := 0, successCount := 0, lastFailureTime := none }

variable {cb}

theorem beforeCall_of_closed (h : cb.state = .closed) (now : ℤ) : cb.beforeCall now = .ok cb := by
  simp [beforeCall, h]

theorem recordSuccess_of_closed (h : cb.state = .closed) :
    cb.recordSuccess = { cb with failureCount := 0 } := by
  simp [recordSuccess, h]

end CircuitBreaker

end MergeQueue
