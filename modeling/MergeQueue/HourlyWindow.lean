import MergeQueue.Lib.IsoText
import MergeQueue.Statistics

/-!
# The window of the hourly analytics

The repository cuts the hourly snapshots at a window of its own, and the endpoint cuts what
it gets at the window of the request, comparing texts.  Each of them reads the clock.
-/

namespace MergeQueue

open IsoText (OnCalendar isoformat)

/-- A row of `analytics_hourly`, with the instant that its timestamp spells. -/
structure HourlyRow where
  id : ℕ
  projectId : ℕ
  timestamp : ℤ
  queueDepth : ℕ
  processedCount : ℕ
  successCount : ℕ
  failedCount : ℕ
  avgWaitTimeSeconds : Option ℤ
  onCalendar : OnCalendar timestamp

/-- A point of the trend as it is sent to the dashboard. -/
structure HourlyPoint where
  timestamp : String
  queueDepth : ℕ
  processedCount : ℕ
  deriving DecidableEq, Repr

def HourlyRow.point (r : HourlyRow) : HourlyPoint where
  timestamp := isoformat r.timestamp
  queueDepth := r.queueDepth
  processedCount := r.processedCount

/-- `timedelta(hours=hours)` in microseconds. -/
def hoursUs (hours : ℕ) : ℤ := hours * 3600000000

/-- A reading of the clock, which is not before the epoch. -/
structure Reading where
  instant : ℤ
  nonneg : 0 ≤ instant
  onCalendar : OnCalendar instant

/-- The hours that the endpoint accepts. -/
structure Hours where
  value : ℕ
  pos : 1 ≤ value
  le_week : value ≤ 168

def HourlyRow.order (a b : HourlyRow) : Prop :=
  a.timestamp < b.timestamp ∨ (a.timestamp = b.timestamp ∧ a.id ≤ b.id)

instance : DecidableRel HourlyRow.order := fun _ _ ↦ inferInstanceAs (Decidable (_ ∨ _))

instance : Std.Total HourlyRow.order := ⟨fun a b ↦ by
  unfold HourlyRow.order
  omega⟩

instance : IsTrans HourlyRow HourlyRow.order := ⟨fun a b c hab hbc ↦ by
  unfold HourlyRow.order at hab hbc ⊢
  omega⟩

section Endpoint

variable (table : List HourlyRow) (projectId : ℕ)

/-- The rows of the project from the last 24 hours, the earliest first. -/
def AnalyticsRepository.hourlyRecords (now : ℤ) : List HourlyRow :=
  (table.filter fun r ↦
    decide (r.projectId = projectId) && decide (now - hoursUs 24 ≤ r.timestamp)).insertionSort
      HourlyRow.order

/-- The hourly trend of `get_metrics`. -/
def AnalyticsRepository.hourlyTrend (now : ℤ) : List HourlyPoint :=
  (hourlyRecords table projectId now).map HourlyRow.point

/-- `now` is read by the repository, `later` by the endpoint itself. -/
def getHourlyAnalytics (hours : ℕ) (now later : ℤ) : List HourlyPoint :=
  let cutoff := isoformat (later - hoursUs hours)
  (AnalyticsRepository.hourlyTrend table projectId now).filter fun point ↦
    decide (cutoff ≤ point.timestamp)

/-- The snapshots of the project that are not older than the hours, in the order of time. -/
def WindowComplete (hours : ℕ) (later : ℤ) (points : List HourlyPoint) : Prop :=
  ∃ rows : List HourlyRow,
    rows.Perm (table.filter fun r ↦
      decide (r.projectId = projectId) && decide (later - hoursUs hours ≤ r.timestamp)) ∧
      rows.Pairwise (fun a b ↦ a.timestamp ≤ b.timestamp) ∧ points = rows.map HourlyRow.point

end Endpoint

section Window

variable {table : List HourlyRow} {projectId : ℕ}

theorem onCalendar_cutoff (hours : Hours) (later : Reading) :
    OnCalendar (later.instant - hoursUs hours.value) := by
  have hweek := hours.le_week
  have hnonneg := later.nonneg
  have hlast := later.onCalendar.last
  refine ⟨?_, ?_⟩
  · unfold hoursUs IsoText.dayUs
    omega
  · unfold hoursUs
    omega

/-- Both windows together. -/
theorem getHourlyAnalytics_eq (hours : Hours) (now : ℤ) (later : Reading) :
    getHourlyAnalytics table projectId hours.value now later.instant =
      ((AnalyticsRepository.hourlyRecords table projectId now).filter fun r ↦
        decide (later.instant - hoursUs hours.value ≤ r.timestamp)).map HourlyRow.point := by
  unfold getHourlyAnalytics AnalyticsRepository.hourlyTrend
  rw [List.filter_map]
  refine congrArg (List.map HourlyRow.point) (List.filter_congr fun r _ ↦ ?_)
  have htext := IsoText.isoformat_le_iff (onCalendar_cutoff hours later) r.onCalendar
  simp only [Function.comp_apply, HourlyRow.point, htext]

theorem hourlyRecords_perm (now : ℤ) :
    (AnalyticsRepository.hourlyRecords table projectId now).Perm (table.filter fun r ↦
      decide (r.projectId = projectId) && decide (now - hoursUs 24 ≤ r.timestamp)) :=
  List.perm_insertionSort _ _

theorem hourlyRecords_pairwise (now : ℤ) :
    (AnalyticsRepository.hourlyRecords table projectId now).Pairwise
      fun a b ↦ a.timestamp ≤ b.timestamp := by
  refine (List.pairwise_insertionSort HourlyRow.order _).imp fun hab ↦ ?_
  rcases hab with hlt | ⟨heq, -⟩
  · exact hlt.le
  · exact heq.le

/-- What is left of the snapshots that were asked for. -/
theorem windows_perm (hours : ℕ) (now later : ℤ) :
    ((AnalyticsRepository.hourlyRecords table projectId now).filter fun r ↦
        decide (later - hoursUs hours ≤ r.timestamp)).Perm
      ((table.filter fun r ↦
        decide (r.projectId = projectId) && decide (later - hoursUs hours ≤ r.timestamp)).filter
          fun r ↦ decide (now - hoursUs 24 ≤ r.timestamp)) := by
  refine ((hourlyRecords_perm now).filter _).trans (List.Perm.of_eq ?_)
  rw [List.filter_filter, List.filter_filter]
  refine List.filter_congr fun r _ ↦ ?_
  rw [Bool.and_left_comm, Bool.and_left_comm (decide (now - hoursUs 24 ≤ r.timestamp)),
    Bool.and_comm (decide (later - hoursUs hours ≤ r.timestamp))]

end Window

/-- The window is complete exactly when the repository has not cut off a snapshot that was
asked for. -/
theorem hourly_window_iff (table : List HourlyRow) (projectId : ℕ) (hours : Hours)
    (now : ℤ) (later : Reading) :
    WindowComplete table projectId hours.value later.instant
        (getHourlyAnalytics table projectId hours.value now later.instant) ↔
      ∀ r ∈ table, r.projectId = projectId →
        later.instant - hoursUs hours.value ≤ r.timestamp → now - hoursUs 24 ≤ r.timestamp := by
  have hleft := @windows_perm table projectId hours.value now later.instant
  rw [getHourlyAnalytics_eq]
  constructor
  · rintro ⟨rows, hperm, -, hpoints⟩ r hr hproject hwindow
    have hlength := congrArg List.length hpoints
    rw [List.length_map, List.length_map, hperm.length_eq, hleft.length_eq,
      List.length_filter_eq_length_iff] at hlength
    have hasked : (decide (r.projectId = projectId) &&
        decide (later.instant - hoursUs hours.value ≤ r.timestamp)) = true := by
      simp [hproject, hwindow]
    exact of_decide_eq_true (hlength r (List.mem_filter.mpr ⟨hr, hasked⟩))
  · intro hinside
    refine ⟨_, hleft.trans (List.Perm.of_eq ?_), (hourlyRecords_pairwise now).filter _, rfl⟩
    refine List.filter_eq_self.mpr fun r hr ↦ decide_eq_true ?_
    obtain ⟨hmem, hasked⟩ := List.mem_filter.mp hr
    rw [Bool.and_eq_true, decide_eq_true_eq, decide_eq_true_eq] at hasked
    exact hinside r hmem hasked.1 hasked.2

theorem onCalendar_epoch : OnCalendar 0 := ⟨by decide, by decide⟩

/-- A snapshot of the first hour of the epoch. -/
def firstSnapshot : HourlyRow where
  id := 1
  projectId := 1
  timestamp := 0
  queueDepth := 3
  processedCount := 2
  successCount := 2
  failedCount := 0
  avgWaitTimeSeconds := none
  onCalendar := onCalendar_epoch

/-- Thirty hours later the snapshot is not among those of the last two days. -/
theorem snapshot_of_yesterday_is_missing :
    ¬ ∀ (table : List HourlyRow) (projectId : ℕ) (hours : Hours) (now : ℤ) (later : Reading),
        WindowComplete table projectId hours.value later.instant
          (getHourlyAnalytics table projectId hours.value now later.instant) := by
  intro hclaim
  obtain ⟨rows, hperm, -, hpoints⟩ := hclaim [firstSnapshot] 1 ⟨48, by decide, by decide⟩
    (hoursUs 30) ⟨hoursUs 30, by decide, ⟨by decide, by decide⟩⟩
  have hnone : getHourlyAnalytics [firstSnapshot] 1 48 (hoursUs 30) (hoursUs 30) = [] := by
    decide +kernel
  have hone : rows.length = 1 := hperm.length_eq.trans (by decide)
  rw [hnone] at hpoints
  rw [List.map_eq_nil_iff.mp hpoints.symm] at hone
  cases hone

end MergeQueue
