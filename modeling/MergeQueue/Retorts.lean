import MergeQueue.Lib.CivilTime
import MergeQueue.Lib.PyJson

/-!
# Queue items in storage

An item is dumped to a dictionary and loaded from one, by two mappings that are written
by hand.  The dumping one does not know the fields that were added to the item later.
-/

namespace MergeQueue.Retorts

open PyJson CivilTime

/-- The item as the program holds it; the pending records are JSON texts. -/
structure QueueItem where
  mrIid : ℤ
  title : Str
  authorName : Str
  authorUsername : Str
  targetBranch : Str
  state : Str
  queuedAt : DateTime
  projectId : ℤ := 0
  isHotfix : Bool := false
  isAutomated : Bool := false
  authorAvatar : Option Str := none
  labels : List Str := []
  startedAt : Option DateTime := none
  finishedAt : Option DateTime := none
  pipelineId : Option ℤ := none
  pipelineStatus : Option Str := none
  expectedSha : Option Str := none
  retryCount : ℤ := 0
  retriedJobs : List (Str × ℤ) := []
  lastError : Option Str := none
  staleWarningSent : Bool := false
  processingAttempts : ℤ := 0
  queueId : ℤ := 0
  metadataVersion : ℤ := 0
  pendingNotification : Option Str := none
  pendingCompletion : Option Str := none
  requeueRequest : Option Str := none
  ignoredLabelEvents : List Str := []
  deriving DecidableEq

/-- The largest count of a job, or the legacy count where no job was retried. -/
def QueueItem.getMaxJobRetryCount (item : QueueItem) : ℤ :=
  (item.retriedJobs.map Prod.snd).max?.getD item.retryCount

/-- `==` of optional datetimes. -/
def sameTime : Option DateTime → Option DateTime → Bool
  | none, none => true
  | some a, some b => a.eq b
  | _, _ => false

/-- `==` of two items: every field is compared, the datetimes by their own `==`. -/
def QueueItem.same (a b : QueueItem) : Bool :=
  a.queuedAt.eq b.queuedAt && sameTime a.startedAt b.startedAt &&
    sameTime a.finishedAt b.finishedAt &&
    decide
      ({ a with queuedAt := b.queuedAt, startedAt := b.startedAt, finishedAt := b.finishedAt } = b)

/-! ## Dumping and loading -/

inductive DateValue
  | text (s : List Char)
  | datetime (d : DateTime)
  deriving DecidableEq

inductive LabelsValue
  | list (labels : List Str)
  | text (raw : Str)
  deriving DecidableEq

/-- The dictionary of an item.  A key may be missing; the inner option is `None`. -/
structure ItemData where
  projectId : Option ℤ := none
  mrIid : Option ℤ := none
  title : Option Str := none
  authorName : Option Str := none
  authorUsername : Option Str := none
  authorAvatar : Option (Option Str) := none
  targetBranch : Option Str := none
  state : Option Str := none
  isHotfix : Option Bool := none
  labels : Option LabelsValue := none
  queuedAt : Option DateValue := none
  startedAt : Option (Option DateValue) := none
  pipelineId : Option (Option ℤ) := none
  pipelineStatus : Option (Option Str) := none
  retryCount : Option ℤ := none
  retriedJobs : Option (List (Str × ℤ)) := none
  lastError : Option (Option Str) := none
  expectedSha : Option (Option Str) := none

def dumpQueueItem (item : QueueItem) : ItemData where
  projectId := some item.projectId
  mrIid := some item.mrIid
  title := some item.title
  authorName := some item.authorName
  authorUsername := some item.authorUsername
  authorAvatar := some item.authorAvatar
  targetBranch := some item.targetBranch
  state := some item.state
  isHotfix := some item.isHotfix
  labels := some (.list item.labels)
  queuedAt := some (.text item.queuedAt.isoformat)
  startedAt := some (item.startedAt.map fun d ↦ .text d.isoformat)
  pipelineId := some item.pipelineId
  pipelineStatus := some item.pipelineStatus
  retryCount := some item.getMaxJobRetryCount
  retriedJobs := some item.retriedJobs
  lastError := some item.lastError
  expectedSha := some item.expectedSha

inductive LoadError
  | keyError (key : String)
  | valueError
  | recursionError
  | untyped
  deriving DecidableEq, Repr

/-- `data[key]`. -/
def lookup {α : Type} (key : String) : Option α → Except LoadError α
  | some value => .ok value
  | none => .error (.keyError key)

/-- A datetime, or the text of one. -/
def dateOf : DateValue → Except LoadError DateTime
  | .datetime d => .ok d
  | .text s =>
      match DateTime.fromisoformat s with
      | some d => .ok d
      | none => .error .valueError

/-- The names in a decoded list.  What is no list of strings does not have the type of
the field, and no more is said about it. -/
def labelNames : List Value → Except LoadError (List Str)
  | [] => .ok []
  | .str s :: values => do
      let names ← labelNames values
      return s :: names
  | _ :: _ => .error .untyped

/-- The labels, or a JSON text of them. -/
def labelsOf (depth : ℕ) : LabelsValue → Except LoadError (List Str)
  | .list labels => .ok labels
  | .text [] => .ok []
  | .text raw =>
      match loads depth raw with
      | .ok (.list values) => labelNames values
      | .ok _ => .error .untyped
      | .error .tooDeep => .error .recursionError
      | .error _ => .error .valueError

def loadQueueItem (depth : ℕ) (data : ItemData) : Except LoadError QueueItem := do
  let queuedAt ← dateOf (← lookup "queued_at" data.queuedAt)
  let startedAt ← (data.startedAt.getD none).mapM dateOf
  let labels ← labelsOf depth (data.labels.getD (.list []))
  return {
    mrIid := ← lookup "mr_iid" data.mrIid
    title := ← lookup "title" data.title
    authorName := ← lookup "author_name" data.authorName
    authorUsername := ← lookup "author_username" data.authorUsername
    targetBranch := ← lookup "target_branch" data.targetBranch
    state := ← lookup "state" data.state
    queuedAt
    projectId := data.projectId.getD 0
    isHotfix := data.isHotfix.getD false
    authorAvatar := data.authorAvatar.getD none
    labels
    startedAt
    pipelineId := data.pipelineId.getD none
    pipelineStatus := data.pipelineStatus.getD none
    retryCount := data.retryCount.getD 0
    retriedJobs := data.retriedJobs.getD []
    lastError := data.lastError.getD none
    expectedSha := data.expectedSha.getD none }

/-! ## What a round trip keeps -/

/-- The item that comes back: the fields that are not dumped have their defaults, the count
is the one of the jobs, and the times have the offsets of their zones. -/
def QueueItem.reloaded (item : QueueItem) : QueueItem where
  mrIid := item.mrIid
  title := item.title
  authorName := item.authorName
  authorUsername := item.authorUsername
  targetBranch := item.targetBranch
  state := item.state
  queuedAt := item.queuedAt.atOffset
  projectId := item.projectId
  isHotfix := item.isHotfix
  authorAvatar := item.authorAvatar
  labels := item.labels
  startedAt := item.startedAt.map DateTime.atOffset
  pipelineId := item.pipelineId
  pipelineStatus := item.pipelineStatus
  retryCount := item.getMaxJobRetryCount
  retriedJobs := item.retriedJobs
  lastError := item.lastError
  expectedSha := item.expectedSha

theorem dateOf_isoformat (d : DateTime) : dateOf (.text d.isoformat) = .ok d.atOffset := by
  rw [dateOf, fromisoformat_isoformat]

theorem load_dump (depth : ℕ) (item : QueueItem) :
    loadQueueItem depth (dumpQueueItem item) = .ok item.reloaded := by
  have hqueued := dateOf_isoformat item.queuedAt
  have hstarted : (item.startedAt.map fun d ↦ DateValue.text d.isoformat).mapM dateOf =
      .ok (item.startedAt.map DateTime.atOffset) := by
    cases item.startedAt with
    | none => rfl
    | some d =>
        have hd := dateOf_isoformat d
        simp only [Option.map_some, Option.mapM_some, hd]
        rfl
  simp only [loadQueueItem, dumpQueueItem, lookup, Option.getD_some, hqueued, hstarted, labelsOf,
    bind, Except.bind]
  rfl

/-- The largest count of the retried jobs is the count of the item. -/
def QueueItem.CountsAgree (item : QueueItem) : Prop :=
  item.retriedJobs = [] ∨ (item.retryCount ∈ item.retriedJobs.map Prod.snd ∧
    ∀ job ∈ item.retriedJobs, job.2 ≤ item.retryCount)

theorem getMaxJobRetryCount_eq_iff (item : QueueItem) :
    item.getMaxJobRetryCount = item.retryCount ↔ item.CountsAgree := by
  unfold QueueItem.getMaxJobRetryCount QueueItem.CountsAgree
  cases hmax : (item.retriedJobs.map Prod.snd).max? with
  | none =>
      have hnil : item.retriedJobs = [] := by simpa using hmax
      simp [hnil]
  | some count =>
      obtain ⟨hmem, hle⟩ := List.max?_eq_some_iff.mp hmax
      have hne : item.retriedJobs ≠ [] := by
        intro hnil
        rw [hnil] at hmem
        cases hmem
      simp only [Option.getD_some, hne, false_or]
      constructor
      · intro heq
        rw [← heq]
        exact ⟨hmem, fun job hjob ↦ hle _ (List.mem_map_of_mem hjob)⟩
      · rintro ⟨hcount, hlargest⟩
        obtain ⟨job, hjob, hsame⟩ := List.mem_map.mp hmem
        exact le_antisymm (hsame ▸ hlargest job hjob) (hle _ hcount)

/-- The clock of the zone neither shows the time twice nor skips it. -/
def Unambiguous (d : DateTime) : Prop := ∀ z ∈ d.zone, z.unambiguous = true

/-- The fields that are not dumped have their defaults, the two retry counts agree, and no
time is ambiguous. -/
structure Survives (item : QueueItem) : Prop where
  isAutomated : item.isAutomated = false
  finishedAt : item.finishedAt = none
  staleWarningSent : item.staleWarningSent = false
  processingAttempts : item.processingAttempts = 0
  queueId : item.queueId = 0
  metadataVersion : item.metadataVersion = 0
  pendingNotification : item.pendingNotification = none
  pendingCompletion : item.pendingCompletion = none
  requeueRequest : item.requeueRequest = none
  ignoredLabelEvents : item.ignoredLabelEvents = []
  counts : item.CountsAgree
  queuedAt : Unambiguous item.queuedAt
  startedAt : ∀ d ∈ item.startedAt, Unambiguous d

theorem sameTime_atOffset (time : Option DateTime) :
    sameTime (time.map DateTime.atOffset) time = true ↔ ∀ d ∈ time, Unambiguous d := by
  cases time with
  | none => simp [sameTime]
  | some d => simp [sameTime, DateTime.atOffset_eq_iff, Unambiguous]

theorem same_reloaded_iff (item : QueueItem) : item.reloaded.same item = true ↔ Survives item := by
  have hfinished : sameTime none item.finishedAt = true ↔ item.finishedAt = none := by
    cases item.finishedAt <;> simp [sameTime]
  have hrest : { item.reloaded with
      queuedAt := item.queuedAt, startedAt := item.startedAt, finishedAt := item.finishedAt } =
        item ↔
      item.isAutomated = false ∧ item.getMaxJobRetryCount = item.retryCount ∧
        item.staleWarningSent = false ∧ item.processingAttempts = 0 ∧ item.queueId = 0 ∧
        item.metadataVersion = 0 ∧ item.pendingNotification = none ∧
        item.pendingCompletion = none ∧ item.requeueRequest = none ∧
        item.ignoredLabelEvents = [] := by
    rcases item with ⟨⟩
    simp only [QueueItem.reloaded, QueueItem.mk.injEq, true_and]
    grind
  rw [QueueItem.same, Bool.and_eq_true, Bool.and_eq_true, Bool.and_eq_true, decide_eq_true_eq]
  change ((item.queuedAt.atOffset.eq item.queuedAt = true ∧
    sameTime (item.startedAt.map DateTime.atOffset) item.startedAt = true) ∧
      sameTime none item.finishedAt = true) ∧ _ ↔ _
  rw [DateTime.atOffset_eq_iff, sameTime_atOffset, hfinished, hrest, getMaxJobRetryCount_eq_iff]
  constructor
  · rintro ⟨⟨⟨hqueued, hstarted⟩, hnone⟩, h₁, hcounts, h₂, h₃, h₄, h₅, h₆, h₇, h₈, h₉⟩
    exact ⟨h₁, hnone, h₂, h₃, h₄, h₅, h₆, h₇, h₈, h₉, hcounts, hqueued, hstarted⟩
  · intro h
    exact ⟨⟨⟨h.queuedAt, h.startedAt⟩, h.finishedAt⟩, h.isAutomated, h.counts,
      h.staleWarningSent, h.processingAttempts, h.queueId, h.metadataVersion,
      h.pendingNotification, h.pendingCompletion, h.requeueRequest, h.ignoredLabelEvents⟩

/-- A dumped item is loaded as an equal one exactly where nothing is set that is not dumped. -/
theorem load_dump_iff (depth : ℕ) (item : QueueItem) :
    (∃ loaded, loadQueueItem depth (dumpQueueItem item) = .ok loaded ∧
      loaded.same item = true) ↔ Survives item := by
  rw [← same_reloaded_iff]
  constructor
  · rintro ⟨loaded, hload, hsame⟩
    rw [load_dump] at hload
    cases hload
    exact hsame
  · exact fun hsame ↦ ⟨item.reloaded, load_dump depth item, hsame⟩

def automatedItem : QueueItem where
  mrIid := 42
  title := str "Test MR"
  authorName := str "User"
  authorUsername := str "user"
  targetBranch := str "master"
  state := str "queued"
  queuedAt := ⟨0, by decide, some (.fixed .utc)⟩
  isAutomated := true

/-- An automated item comes back as an ordinary one. -/
theorem automated_not_reloaded :
    ¬ ∀ depth item, ∃ loaded, loadQueueItem depth (dumpQueueItem item) = .ok loaded ∧
      loaded.same item = true := by
  intro hclaim
  obtain ⟨loaded, hload, hsame⟩ := hclaim 9 automatedItem
  rw [load_dump] at hload
  cases hload
  have hautomated := (same_reloaded_iff automatedItem).mp hsame
  exact absurd hautomated.isAutomated (by decide)

end MergeQueue.Retorts
