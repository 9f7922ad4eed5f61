import MergeQueue.EventOrder
import Mathlib.Data.List.Basic

/-!
# Requeue requests

While a completion owns a row, label events for the same merge request are not
applied to the queue.  They are folded into one saved request per row, which
the final transaction turns into a new lifecycle or drops.
-/

namespace MergeQueue

/-- A random identifier drawn by the program. -/
abbrev Uuid := ℕ

inductive LabelAction
  | remove
  | restore
  deriving DecidableEq, Repr

/-- Traces of the bot's own label changes: the time GitLab reported for one, the
identifier of the operation, the account that performed it, or the receipt of an
admission that was consumed.  Times are compared as instants; the program compares their
`isoformat` texts, which differ for one instant only where the offsets from UTC do. -/
inductive LabelEvent
  | at (eventAt : ℤ)
  | uuid (operation : Uuid)
  | actor (actorId : ℕ) (action : LabelAction)
  | admission (key : String)
  deriving DecidableEq, Repr

/-- The column values of the row that a request would create. -/
structure RequeueParams where
  projectId : ℕ
  iid : ℕ
  title : String
  authorName : String
  authorUsername : String
  authorAvatar : Option String
  targetBranch : String
  labels : List String
  isHotfix : Bool
  deriving DecidableEq, Repr

/-- The request a webhook handler passes to `defer_requeue`. -/
structure EnqueueRequest where
  clock : SourceClock
  triggers : List String
  isHotfix : Bool
  queueId : Option ℕ := none
  labels : Option (List String) := none
  messageId : Option String := none
  actorId : Option ℕ := none
  admissionKey : Option String := none
  title : Option String := none
  targetBranch : Option String := none
  labelSnapshot : Option SourceClock := none
  deriving DecidableEq, Repr

/-- What `_write_requeue` is asked to fold into the saved request. -/
inductive Incoming
  | enqueue (request : EnqueueRequest) (params : RequeueParams)
  | cancel (eventAt : ℤ) (precisionUs : ℤ) (messageId : Option String)
  deriving DecidableEq, Repr

namespace Incoming

def clock : Incoming → SourceClock
  | enqueue request _ => request.clock
  | cancel eventAt precisionUs _ => { requestedAt := some eventAt, precisionUs }

def messageId : Incoming → Option String
  | enqueue request _ => request.messageId
  | cancel _ _ messageId => messageId

def cancelled : Incoming → Bool
  | enqueue _ _ => false
  | cancel _ _ _ => true

@[simp] theorem clock_enqueue (request : EnqueueRequest) (params : RequeueParams) :
    (enqueue request params).clock = request.clock := rfl

@[simp] theorem clock_cancel (eventAt p : ℤ) (m : Option String) :
    (cancel eventAt p m).clock = ⟨some eventAt, p⟩ := rfl

@[simp] theorem cancelled_enqueue (request : EnqueueRequest) (params : RequeueParams) :
    (enqueue request params).cancelled = false := rfl

@[simp] theorem cancelled_cancel (eventAt p : ℤ) (m : Option String) :
    (cancel eventAt p m).cancelled = true := rfl

end Incoming

/-- The part of a saved request that an enqueue wrote. -/
structure Admission where
  triggers : List String
  isHotfix : Bool
  queueId : Option ℕ
  labels : Option (List String)
  actorId : Option ℕ
  admissionKey : Option String
  title : Option String
  targetBranch : Option String
  params : RequeueParams
  labelSnapshot : SourceClock
  deriving DecidableEq, Repr

/-- A saved request ends in an enqueue, or in a cancellation that keeps what an
earlier enqueue wrote.  Its `cancelled_events` is empty in the first case and the
time of the cancellation in the second. -/
inductive Intent
  | enqueue (admission : Admission)
  | cancel (eventAt : ℤ) (admission : Option Admission)
  deriving DecidableEq, Repr

structure Requeue where
  clock : SourceClock
  intent : Intent
  messageId : Option String
  token : Option Uuid := none
  seenMessages : List String := []
  appliedAt : Option ℤ := none
  deriving DecidableEq, Repr

namespace Requeue

def cancelledEvents (request : Requeue) : List ℤ :=
  match request.intent with
  | .enqueue _ => []
  | .cancel eventAt _ => [eventAt]

/-- What is left of an enqueue, cancelled or not. -/
def admission (request : Requeue) : Option Admission :=
  match request.intent with
  | .enqueue admission => some admission
  | .cancel _ admission => admission

/-- The enqueue of a request without cancelled events. -/
def liveAdmission (request : Requeue) : Option Admission :=
  match request.intent with
  | .enqueue admission => some admission
  | .cancel _ _ => none

theorem cancelledEvents_of_enqueue {request : Requeue} {a : Admission}
    (h : request.intent = .enqueue a) : request.cancelledEvents = [] := by
  simp [cancelledEvents, h]

theorem cancelledEvents_of_cancel {request : Requeue} {eventAt : ℤ} {a : Option Admission}
    (h : request.intent = .cancel eventAt a) : request.cancelledEvents = [eventAt] := by
  simp [cancelledEvents, h]

end Requeue

/-- Bot cleanup events cannot cancel a user's explicit enqueue request. -/
def requeueIsCancelled (request : Requeue) (ownEvents : List LabelEvent) : Bool :=
  request.cancelledEvents.any fun event ↦ !ownEvents.contains (LabelEvent.at event)

/-- The clock `compare_event` reads, also where nothing is saved. -/
def savedClock (previous : Option Requeue) : SourceClock :=
  match previous with
  | some request => request.clock
  | none => { requestedAt := none }

/-- Labels in the order of their first occurrence, each once. -/
def fromkeys (labels : List String) : List String := labels.eraseDups

/-- Order full labels independently from explicit admission provenance. -/
def requeueLabelSnapshot (request : EnqueueRequest) (params : RequeueParams)
    (previous : Option Requeue) : List String × SourceClock :=
  let source := request.labelSnapshot.getD request.clock
  match previous.bind Requeue.liveAdmission with
  | none => (params.labels, source)
  | some old =>
      let order := compareEvent source old.labelSnapshot
      if order < 0 then (old.params.labels, old.labelSnapshot)
      else if order = 0 then
        (fromkeys (old.params.labels ++ params.labels),
          preserveUncertainty source old.labelSnapshot)
      else (params.labels, source)

def mergeRequeue (incoming : Incoming) (previous : Option Requeue) (order : ℤ) : Requeue :=
  match incoming with
  | .cancel eventAt precisionUs messageId =>
      { clock := { requestedAt := some eventAt, precisionUs }
        intent := .cancel eventAt (previous.bind Requeue.admission)
        messageId
        token := previous.bind Requeue.token
        seenMessages := (previous.map Requeue.seenMessages).getD []
        appliedAt := previous.bind Requeue.appliedAt }
  | .enqueue request params =>
      let overlapped := if order = 0 then previous.bind Requeue.liveAdmission else none
      let clock :=
        if overlapped.isSome then preserveUncertainty request.clock (savedClock previous)
        else request.clock
      let triggers :=
        match overlapped with
        | some old => fromkeys (old.triggers ++ request.triggers)
        | none => request.triggers
      let isHotfix :=
        match overlapped with
        | some old => old.params.isHotfix || params.isHotfix
        | none => params.isHotfix
      let (labels, labelClock) := requeueLabelSnapshot request params previous
      { clock
        intent := .enqueue
          { triggers
            isHotfix := request.isHotfix
            queueId := request.queueId
            labels := request.labels
            actorId := request.actorId
            admissionKey := request.admissionKey
            title := request.title
            targetBranch := request.targetBranch
            params := { params with isHotfix, labels := fromkeys (triggers ++ labels) }
            labelSnapshot := labelClock }
        messageId := request.messageId }

/-- The request that `_write_requeue` saves over `previous`, or nothing where it
acknowledges the event without a write. -/
def writtenRequeue (incoming : Incoming) (previous : Option Requeue) (token : Uuid) :
    Option Requeue :=
  let seen := (previous.map Requeue.seenMessages).getD []
  if incoming.messageId.any fun message ↦ seen.contains message then none
  else
    let order := compareEvent incoming.clock (savedClock previous)
    let keepsEnqueue := previous.any fun saved ↦ saved.cancelledEvents.isEmpty
    if order < 0 then none
    else if order = 0 ∧ incoming.cancelled = true ∧ keepsEnqueue = true then none
    else
      some
        { mergeRequeue incoming previous order with
          appliedAt := none
          token := some token
          seenMessages := seen ++ (incoming.messageId.filter (· ≠ "")).toList }

/-- The request that `refresh_requeue_labels` saves over `saved`, or nothing
where it acknowledges the labels without a write. -/
def refreshedRequeue (saved : Requeue) (labels : List String) (source : SourceClock) :
    Option Requeue :=
  match saved.intent with
  | .cancel _ _ => none
  | .enqueue old =>
      let order := compareEvent source old.labelSnapshot
      if order < 0 then none
      else
        let merged := fromkeys (old.triggers ++ labels)
        let (merged, clock) :=
          if order = 0 then
            (fromkeys (old.params.labels ++ merged), preserveUncertainty source old.labelSnapshot)
          else (merged, source)
        let pending :=
          { saved with
            intent := .enqueue
              { old with params := { old.params with labels := merged }, labelSnapshot := clock } }
        if pending = saved then none else some pending

/-- The keys under which the events of an admission are recognised again. -/
def admissionReceipts (request : Requeue) : List String :=
  let key := request.admission.bind Admission.admissionKey
  (key.toList ++ request.seenMessages).eraseDups

end MergeQueue
