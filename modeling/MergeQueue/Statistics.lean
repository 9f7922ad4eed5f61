import Mathlib.Algebra.GroupWithZero.Nat
import MergeQueue.RequeueTransfer

/-!
# Statistics over the history

The dashboard, the analytics repository and the list of recent merge requests
read the same table, and each of them names the statuses it looks for.
-/

namespace MergeQueue

/-- `SUM(CASE WHEN status IN (…) THEN 1 ELSE 0 END)`. -/
def sumCase (statuses : List HistoryStatus) (rows : List HistoryRow) : ℕ :=
  (rows.map fun r ↦ if r.values.status ∈ statuses then 1 else 0).sum

/-- The rows of one project, or of all projects. -/
def HistoryRow.inProject (projectId : Option ℕ) (r : HistoryRow) : Bool :=
  projectId.all fun p ↦ r.values.projectId = p

structure DashboardStats where
  totalInQueue : ℕ
  mergedCount : ℕ
  failedCount : ℕ
  statsWindowDays : ℕ
  deriving DecidableEq, Repr

structure PeriodStats where
  totalProcessed : ℕ
  successCount : ℕ
  failedCount : ℕ
  conflictCount : ℕ
  timeoutCount : ℕ
  hotfixCount : ℕ
  deriving DecidableEq, Repr

structure DashboardMetrics where
  totalInQueue : ℕ
  mergedCount : ℕ
  failedCount : ℕ
  deriving DecidableEq, Repr

/-- `timedelta(days=days)` in microseconds. -/
def daysUs (days : ℤ) : ℤ := days * 86400000000

namespace QueueManager

def historyOrder (a b : HistoryRow) : Prop :=
  b.values.finishedAt < a.values.finishedAt ∨
    (b.values.finishedAt = a.values.finishedAt ∧ b.id ≤ a.id)

instance : DecidableRel historyOrder := fun _ _ ↦ inferInstanceAs (Decidable (_ ∨ _))

def getRecentHistory (limit : ℕ) (projectId : Option ℕ) (db : Database) : List HistoryRow :=
  ((db.history.rows.filter fun r ↦
    r.values.status ∈ [.merged, .failed, .removed, .conflict, .timeout] &&
      r.inProject projectId).insertionSort historyOrder).take limit

/-- The rows that the dashboard looks at. -/
def statsWindow (days : ℕ) (projectId : Option ℕ) (now : ℤ) (db : Database) : List HistoryRow :=
  db.history.rows.filter fun r ↦
    decide (now - daysUs days ≤ r.values.finishedAt) && r.inProject projectId

def queueLength (projectId : Option ℕ) (db : Database) : ℕ :=
  match projectId with
  | some p => getQueueLength p db
  | none => db.mergeRequests.rows.countP fun r ↦ r.status.active

def getDashboardStats (days : ℕ) (projectId : Option ℕ) (now : ℤ) (db : Database) :
    DashboardStats :=
  let window := statsWindow days projectId now db
  let mergedCount := sumCase [.merged] window
  let totalCompleted := sumCase [.merged, .failed, .conflict, .timeout] window
  { totalInQueue := queueLength projectId db
    mergedCount
    failedCount := totalCompleted - mergedCount
    statsWindowDays := days }

end QueueManager

/-! ## The repositories, each opened for one project -/

namespace HistoryRepository

/-- The rows of the project that finished between two instants. -/
def between (start finish : ℤ) (projectId : ℕ) (db : Database) : List HistoryRow :=
  db.history.rows.filter fun r ↦
    decide (start ≤ r.values.finishedAt) && decide (r.values.finishedAt ≤ finish) &&
      r.inProject (some projectId)

/-- A date is the number of its day since the epoch, its last instant one microsecond
before the next day. -/
def periodWindow (dateFrom dateTo : ℤ) (projectId : ℕ) (db : Database) : List HistoryRow :=
  between (daysUs dateFrom) (daysUs (dateTo + 1) - 1) projectId db

def getStatsForPeriod (dateFrom dateTo : ℤ) (projectId : ℕ) (db : Database) : PeriodStats :=
  let window := periodWindow dateFrom dateTo projectId db
  { totalProcessed := window.length
    successCount := sumCase [.merged] window
    failedCount := sumCase [.failed] window
    conflictCount := sumCase [.conflict] window
    timeoutCount := sumCase [.timeout] window
    hotfixCount := (window.map fun r ↦ if r.values.isHotfix then 1 else 0).sum }

def lastHourWindow (projectId : ℕ) (now : ℤ) (db : Database) : List HistoryRow :=
  between (now - 3600000000) now projectId db

def getStatsForLastHour (projectId : ℕ) (now : ℤ) (db : Database) : PeriodStats :=
  let window := lastHourWindow projectId now db
  { totalProcessed := window.length
    successCount := sumCase [.merged] window
    failedCount := sumCase [.failed, .conflict, .timeout] window
    conflictCount := 0
    timeoutCount := 0
    hotfixCount := 0 }

end HistoryRepository

namespace AnalyticsRepository

def getMetrics (periodDays projectId : ℕ) (now : ℤ) (db : Database) : DashboardMetrics :=
  let window := QueueManager.statsWindow periodDays (some projectId) now db
  { totalInQueue := QueueManager.getQueueLength projectId db
    mergedCount := sumCase [.merged] window
    failedCount := sumCase [.failed, .conflict, .timeout] window }

end AnalyticsRepository

/-! ## Counting each row once -/

/-- The rows of a window that were not removed from the queue. -/
def finishedCount (window : List HistoryRow) : ℕ :=
  window.countP fun r ↦ r.values.status ≠ .removed

@[simp] theorem sumCase_nil (statuses : List HistoryStatus) : sumCase statuses [] = 0 := rfl

@[simp] theorem sumCase_cons (statuses : List HistoryStatus) (r : HistoryRow)
    (rows : List HistoryRow) :
    sumCase statuses (r :: rows) =
      (if r.values.status ∈ statuses then 1 else 0) + sumCase statuses rows := by
  simp [sumCase]

@[simp] theorem finishedCount_cons (r : HistoryRow) (rows : List HistoryRow) :
    finishedCount (r :: rows) =
      (if r.values.status = .removed then 0 else 1) + finishedCount rows := by
  have h := @List.countP_cons _ (fun r : HistoryRow ↦ decide (r.values.status ≠ .removed)) r rows
  rw [finishedCount, h, finishedCount]
  by_cases hremoved : r.values.status = .removed
  · simp [hremoved]
  · simp only [hremoved, ne_eq, not_false_eq_true, decide_true, if_true, if_false]
    omega

/-- Lists of statuses without a common one count a row at most once. -/
theorem sumCase_append {xs ys : List HistoryStatus} (hdisjoint : ∀ s ∈ xs, s ∉ ys)
    (rows : List HistoryRow) :
    sumCase (xs ++ ys) rows = sumCase xs rows + sumCase ys rows := by
  induction rows with
  | nil => rfl
  | cons r rows ih =>
      simp only [sumCase_cons, ih, List.mem_append]
      by_cases hx : r.values.status ∈ xs
      · have hy : r.values.status ∉ ys := hdisjoint _ hx
        simp only [hx, hy, or_false, if_true, if_false]
        omega
      · by_cases hy : r.values.status ∈ ys
        · simp only [hx, hy, or_true, if_true, if_false]
          omega
        · simp only [hx, hy, or_false, if_false]
          omega

theorem sumCase_le_finishedCount {statuses : List HistoryStatus} (hremoved : .removed ∉ statuses)
    (rows : List HistoryRow) : sumCase statuses rows ≤ finishedCount rows := by
  induction rows with
  | nil => exact Nat.zero_le _
  | cons r rows ih =>
      simp only [sumCase_cons, finishedCount_cons]
      by_cases hmem : r.values.status ∈ statuses
      · have hne : r.values.status ≠ .removed := fun h ↦ hremoved (h ▸ hmem)
        simp only [hmem, hne, if_true, if_false]
        omega
      · simp only [hmem, if_false]
        omega

/-- The totals miss a row exactly when none of their statuses is the one it has. -/
theorem sumCase_eq_finishedCount_iff {statuses : List HistoryStatus}
    (hremoved : .removed ∉ statuses) (rows : List HistoryRow) :
    sumCase statuses rows = finishedCount rows ↔
      ∀ r ∈ rows, r.values.status ≠ .removed → r.values.status ∈ statuses := by
  induction rows with
  | nil => simp [finishedCount]
  | cons r rows ih =>
      have hle := sumCase_le_finishedCount hremoved rows
      simp only [sumCase_cons, finishedCount_cons, List.forall_mem_cons, ← ih]
      by_cases hmem : r.values.status ∈ statuses
      · have hne : r.values.status ≠ .removed := fun h ↦ hremoved (h ▸ hmem)
        simp [hmem, hne]
      · by_cases hr : r.values.status = .removed
        · simp only [hr, if_true, if_false, hremoved]
          simp
        · have hless : (if r.values.status ∈ statuses then 1 else 0) + sumCase statuses rows ≠
              (if r.values.status = .removed then 0 else 1) + finishedCount rows := by
            rw [if_neg hmem, if_neg hr]
            omega
          exact iff_of_false hless fun h ↦ hmem (h.1 hr)

theorem mem_completed_iff (s : HistoryStatus) :
    (s ≠ .removed → s ∈ [HistoryStatus.merged, .failed, .conflict, .timeout]) ↔
      s ≠ .mergeFailed := by
  cases s <;> decide

/-- The four statuses that the statistics know leave out one ending. -/
theorem sumCase_completed_iff (rows : List HistoryRow) :
    sumCase [.merged, .failed, .conflict, .timeout] rows = finishedCount rows ↔
      ∀ r ∈ rows, r.values.status ≠ .mergeFailed := by
  have hremoved : HistoryStatus.removed ∉
      [HistoryStatus.merged, .failed, .conflict, .timeout] := by decide
  rw [sumCase_eq_finishedCount_iff hremoved]
  exact forall₂_congr fun r _ ↦ mem_completed_iff r.values.status

theorem finishedCount_eq_length_iff (rows : List HistoryRow) :
    rows.length = finishedCount rows ↔ ∀ r ∈ rows, r.values.status ≠ .removed := by
  rw [finishedCount, eq_comm, List.countP_eq_length]
  simp

/-! ## The reports -/

namespace QueueManager

theorem dashboard_total (days : ℕ) (projectId : Option ℕ) (now : ℤ) (db : Database) :
    (getDashboardStats days projectId now db).mergedCount +
        (getDashboardStats days projectId now db).failedCount =
      sumCase [.merged, .failed, .conflict, .timeout] (statsWindow days projectId now db) := by
  have hsplit := @sumCase_append [.merged] [.failed, .conflict, .timeout] (by decide)
    (statsWindow days projectId now db)
  simp only [List.singleton_append] at hsplit
  simp only [getDashboardStats]
  omega

/-- A limit that no table exceeds keeps every row that the query selects. -/
theorem recentHistory_perm {limit : ℕ} {projectId : Option ℕ} {db : Database}
    (hlimit : db.history.rows.length ≤ limit) :
    (getRecentHistory limit projectId db).Perm
      (db.history.rows.filter fun r ↦
        r.values.status ∈ [.merged, .failed, .removed, .conflict, .timeout] &&
          r.inProject projectId) := by
  rw [getRecentHistory, List.take_of_length_le]
  · exact List.perm_insertionSort _ _
  · rw [List.length_insertionSort]
    exact (List.length_filter_le _ _).trans hlimit

theorem mem_recentHistory {limit : ℕ} {projectId : Option ℕ} {db : Database} {r : HistoryRow}
    (hlimit : db.history.rows.length ≤ limit) :
    r ∈ getRecentHistory limit projectId db ↔
      r ∈ db.history.rows ∧ r.values.status ≠ .mergeFailed ∧ r.inProject projectId = true := by
  have hknown : r.values.status ∈
      [HistoryStatus.merged, .failed, .removed, .conflict, .timeout] ↔
        r.values.status ≠ .mergeFailed := by
    cases r.values.status <;> decide
  rw [(recentHistory_perm hlimit).mem_iff, List.mem_filter, Bool.and_eq_true, decide_eq_true_eq,
    hknown]

end QueueManager

theorem HistoryRepository.period_total (dateFrom dateTo : ℤ) (projectId : ℕ) (db : Database) :
    (getStatsForPeriod dateFrom dateTo projectId db).successCount +
        ((getStatsForPeriod dateFrom dateTo projectId db).failedCount +
          (getStatsForPeriod dateFrom dateTo projectId db).conflictCount +
          (getStatsForPeriod dateFrom dateTo projectId db).timeoutCount) =
      sumCase [.merged, .failed, .conflict, .timeout]
        (periodWindow dateFrom dateTo projectId db) := by
  have hmerged := @sumCase_append [.merged] [.failed, .conflict, .timeout] (by decide)
    (periodWindow dateFrom dateTo projectId db)
  have hfailed := @sumCase_append [.failed] [.conflict, .timeout] (by decide)
    (periodWindow dateFrom dateTo projectId db)
  have hconflict := @sumCase_append [.conflict] [.timeout] (by decide)
    (periodWindow dateFrom dateTo projectId db)
  simp only [List.singleton_append] at hmerged hfailed hconflict
  simp only [getStatsForPeriod]
  omega

/-- Every report over the table accounts for the rows it is asked about: the success
and failure totals of a window add up to the rows that were not removed, and a long
enough list of recent merge requests is the whole table. -/
structure CountedOnce (db : Database) (projectId : Option ℕ) (days repository : ℕ)
    (dateFrom dateTo now : ℤ) : Prop where
  dashboard :
    (QueueManager.getDashboardStats days projectId now db).mergedCount +
        (QueueManager.getDashboardStats days projectId now db).failedCount =
      finishedCount (QueueManager.statsWindow days projectId now db)
  metrics :
    (AnalyticsRepository.getMetrics days repository now db).mergedCount +
        (AnalyticsRepository.getMetrics days repository now db).failedCount =
      finishedCount (QueueManager.statsWindow days (some repository) now db)
  period :
    (HistoryRepository.getStatsForPeriod dateFrom dateTo repository db).successCount +
        ((HistoryRepository.getStatsForPeriod dateFrom dateTo repository db).failedCount +
          (HistoryRepository.getStatsForPeriod dateFrom dateTo repository db).conflictCount +
          (HistoryRepository.getStatsForPeriod dateFrom dateTo repository db).timeoutCount) =
      finishedCount (HistoryRepository.periodWindow dateFrom dateTo repository db)
  lastHour :
    (HistoryRepository.getStatsForLastHour repository now db).successCount +
        (HistoryRepository.getStatsForLastHour repository now db).failedCount =
      finishedCount (HistoryRepository.lastHourWindow repository now db)
  recent : ∀ limit, db.history.rows.length ≤ limit → ∀ r ∈ db.history.rows,
    r.inProject projectId = true → r ∈ QueueManager.getRecentHistory limit projectId db

/-- `total_processed` is the number of rows that were not removed. -/
structure ProcessedOnce (db : Database) (repository : ℕ) (dateFrom dateTo now : ℤ) : Prop where
  period :
    (HistoryRepository.getStatsForPeriod dateFrom dateTo repository db).totalProcessed =
      finishedCount (HistoryRepository.periodWindow dateFrom dateTo repository db)
  lastHour :
    (HistoryRepository.getStatsForLastHour repository now db).totalProcessed =
      finishedCount (HistoryRepository.lastHourWindow repository now db)

/-- A row of the given windows or of the table that the recent merge requests list. -/
def AskedAbout (db : Database) (projectId : Option ℕ) (days repository : ℕ)
    (dateFrom dateTo now : ℤ) (r : HistoryRow) : Prop :=
  (r ∈ db.history.rows ∧ r.inProject projectId = true) ∨
    r ∈ QueueManager.statsWindow days (some repository) now db ∨
    r ∈ HistoryRepository.periodWindow dateFrom dateTo repository db ∨
    r ∈ HistoryRepository.lastHourWindow repository now db

theorem countedOnce_iff (db : Database) (projectId : Option ℕ) (days repository : ℕ)
    (dateFrom dateTo now : ℤ) :
    CountedOnce db projectId days repository dateFrom dateTo now ↔
      ∀ r, AskedAbout db projectId days repository dateFrom dateTo now r →
        r.values.status ≠ .mergeFailed := by
  have hmetrics := @sumCase_append [.merged] [.failed, .conflict, .timeout] (by decide)
    (QueueManager.statsWindow days (some repository) now db)
  have hhour := @sumCase_append [.merged] [.failed, .conflict, .timeout] (by decide)
    (HistoryRepository.lastHourWindow repository now db)
  simp only [List.singleton_append] at hmetrics hhour
  constructor
  · rintro ⟨-, hm, hp, hl, hrecent⟩ r (⟨hr, hproject⟩ | hr | hr | hr)
    · exact ((QueueManager.mem_recentHistory le_rfl).mp (hrecent _ le_rfl r hr hproject)).2.1
    · exact (sumCase_completed_iff _).mp (hmetrics.trans hm) r hr
    · rw [HistoryRepository.period_total] at hp
      exact (sumCase_completed_iff _).mp hp r hr
    · exact (sumCase_completed_iff _).mp (hhour.trans hl) r hr
  · intro hnone
    constructor
    · rw [QueueManager.dashboard_total, sumCase_completed_iff]
      intro r hr
      obtain ⟨hmem, hin⟩ := List.mem_filter.mp hr
      rw [Bool.and_eq_true] at hin
      exact hnone r (Or.inl ⟨hmem, hin.2⟩)
    · exact hmetrics.symm.trans
        ((sumCase_completed_iff _).mpr fun r hr ↦ hnone r (Or.inr (Or.inl hr)))
    · rw [HistoryRepository.period_total, sumCase_completed_iff]
      exact fun r hr ↦ hnone r (Or.inr (Or.inr (Or.inl hr)))
    · exact hhour.symm.trans
        ((sumCase_completed_iff _).mpr fun r hr ↦ hnone r (Or.inr (Or.inr (Or.inr hr))))
    · intro limit hlimit r hr hproject
      exact (QueueManager.mem_recentHistory hlimit).mpr
        ⟨hr, hnone r (Or.inl ⟨hr, hproject⟩), hproject⟩

theorem processedOnce_iff (db : Database) (repository : ℕ) (dateFrom dateTo now : ℤ) :
    ProcessedOnce db repository dateFrom dateTo now ↔
      ∀ r, r ∈ HistoryRepository.periodWindow dateFrom dateTo repository db ∨
          r ∈ HistoryRepository.lastHourWindow repository now db →
        r.values.status ≠ .removed := by
  constructor
  · rintro ⟨hperiod, hhour⟩ r (hr | hr)
    · exact (finishedCount_eq_length_iff _).mp hperiod r hr
    · exact (finishedCount_eq_length_iff _).mp hhour r hr
  · intro h
    exact ⟨(finishedCount_eq_length_iff _).mpr fun r hr ↦ h r (Or.inl hr),
      (finishedCount_eq_length_iff _).mpr fun r hr ↦ h r (Or.inr hr)⟩

/-- The success and failure totals leave out the merge requests whose merge failed,
and `total_processed` counts the removed ones as well. -/
theorem reports_count_once_iff (db : Database) (projectId : Option ℕ) (days repository : ℕ)
    (dateFrom dateTo now : ℤ) :
    (CountedOnce db projectId days repository dateFrom dateTo now ↔
        ∀ r, AskedAbout db projectId days repository dateFrom dateTo now r →
          r.values.status ≠ .mergeFailed) ∧
      (ProcessedOnce db repository dateFrom dateTo now ↔
        ∀ r, r ∈ HistoryRepository.periodWindow dateFrom dateTo repository db ∨
            r ∈ HistoryRepository.lastHourWindow repository now db →
          r.values.status ≠ .removed) :=
  ⟨countedOnce_iff db projectId days repository dateFrom dateTo now,
    processedOnce_iff db repository dateFrom dateTo now⟩

/-! ## A merge that fails -/

def mergeFailedRequest : CompletionRequest where
  state := .failed
  notificationStatus := .mergeFailed
  context := [("failed_at", .time 5000000)]
  outcome := { historyStatus := .mergeFailed }

/-- The merge request waits, its merge fails, and the completion is finished. -/
def mergeFailedCalls : List Call :=
  let call (now : ℤ) (op : QueueOp) : Call := { qm := {}, now, tokens := id, op }
  let opening := [call 0 (.addToQueue 1 sampleMergeRequest false),
    call 5000000 (.prepareCompletion 1 7 mergeFailedRequest)]
  let item := (run opening .empty).items.getLastD (rowToQueueItem sampleRow)
  opening ++ [call 6000000 (.finalizeCompletion 1 item
    (QueueManager.completionPayload (rowToQueueItem sampleRow) mergeFailedRequest 5000000))]

theorem failed_merge_is_counted_nowhere :
    (run mergeFailedCalls .empty).db.history.rows.map (fun r ↦ r.values.status) =
        [.mergeFailed] ∧
      ¬CountedOnce (run mergeFailedCalls .empty).db none 7 1 0 0 7000000 := by
  refine ⟨by decide +kernel, fun h ↦ ?_⟩
  have hdashboard := h.dashboard
  revert hdashboard
  decide +kernel

end MergeQueue
