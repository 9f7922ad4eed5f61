import Mathlib.Data.Int.Order.Basic
import Mathlib.Tactic.Common

/-!
# Source timestamps

GitLab reports when an event happened with a precision that varies from one
webhook to the next, so a source timestamp is the interval of instants it may
stand for.  Instants are integers, in microseconds.
-/

namespace MergeQueue

/-- The source clock of a request: its `requested_at`, if it has one, and its
`precision_us`, which is read as one microsecond where it is absent. -/
structure SourceClock where
  requestedAt : Option ℤ
  precisionUs : ℤ := 1
  deriving DecidableEq, Repr

def definitelyBefore (eventAt : ℤ) (precisionUs : ℤ) (boundary : ℤ) : Bool :=
  decide (eventAt + precisionUs ≤ boundary)

/-- `-1` or `1` for a proved order, `0` for overlapping or missing intervals. -/
def compareEvent (request previous : SourceClock) : ℤ :=
  match request.requestedAt, previous.requestedAt with
  | some start, some old =>
      if definitelyBefore start request.precisionUs old then -1
      else if definitelyBefore old previous.precisionUs start then 1
      else 0
  | _, _ => 0

/-- The clock of two overlapping requests: the interval that covers both. -/
def preserveUncertainty (request previous : SourceClock) : SourceClock :=
  match request.requestedAt, previous.requestedAt with
  | some start, some old =>
      let lower := min start old
      let upper := max (start + request.precisionUs) (old + previous.precisionUs)
      { requestedAt := some lower, precisionUs := upper - lower }
  | _, _ => { request with requestedAt := none }

@[simp] theorem compareEvent_none_left (p : ℤ) (previous : SourceClock) :
    compareEvent ⟨none, p⟩ previous = 0 := rfl

@[simp] theorem compareEvent_none_right (request : SourceClock) (p : ℤ) :
    compareEvent request ⟨none, p⟩ = 0 := by
  rcases request with ⟨_ | start, q⟩ <;> rfl

theorem compareEvent_some (start p old q : ℤ) :
    compareEvent ⟨some start, p⟩ ⟨some old, q⟩ =
      if start + p ≤ old then -1 else if old + q ≤ start then 1 else 0 := by
  simp [compareEvent, definitelyBefore]

theorem preserveUncertainty_some (start p old q : ℤ) :
    preserveUncertainty ⟨some start, p⟩ ⟨some old, q⟩ =
      ⟨some (min start old), max (start + p) (old + q) - min start old⟩ := rfl

end MergeQueue
