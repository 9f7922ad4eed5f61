import MergeQueue.PipelineHandler
import Mathlib.Algebra.Order.BigOperators.Group.Finset

/-!
# The retry counts of the jobs

Counts only grow: a round of retries adds one for each name with a retry that succeeded,
and the counts of the row are taken in where they are greater.  What the names of a
pipeline can still spend of their limit bounds the rounds that succeed.
-/

namespace MergeQueue

open Counts (countOf setCount countOf_cons countOf_setCount countOf_increments)

/-! ## The counts of the row -/

/-- The counts of the loop with those of the row, where the latter are greater. -/
def syncCounts (saved counts : List (String × ℕ)) : List (String × ℕ) :=
  saved.foldl (fun counts entry ↦
    setCount counts entry.1 (max (countOf counts entry.1) entry.2)) counts

theorem le_countOf_syncCounts (saved counts : List (String × ℕ)) (job : String) :
    countOf counts job ≤ countOf (syncCounts saved counts) job := by
  induction saved generalizing counts with
  | nil => exact le_rfl
  | cons entry saved ih =>
      refine le_trans ?_ (ih _)
      rw [countOf_setCount]
      split_ifs with hjob
      · rw [hjob]
        exact le_max_left _ _
      · exact le_rfl

theorem countOf_saved_le_syncCounts (saved counts : List (String × ℕ)) (job : String) :
    countOf saved job ≤ countOf (syncCounts saved counts) job := by
  induction saved generalizing counts with
  | nil => exact Nat.zero_le _
  | cons entry saved ih =>
      obtain ⟨name, count⟩ := entry
      rw [countOf_cons]
      split_ifs with hjob
      · refine le_trans ?_ (le_countOf_syncCounts saved _ job)
        rw [countOf_setCount, if_pos hjob]
        exact le_max_right _ _
      · exact ih _

/-! ## One round of retries -/

theorem nodup_fromkeys (names : List String) : (fromkeys names).Nodup := by
  unfold fromkeys
  induction hlength : names.length using Nat.strong_induction_on generalizing names with
  | _ n ih =>
      cases names with
      | nil => exact List.nodup_nil
      | cons name names =>
          rw [List.eraseDups_cons]
          refine List.nodup_cons.mpr ⟨by simp, ih _ ?_ _ rfl⟩
          have hfilter := List.length_filter_le (fun b ↦ !b == name) names
          rw [← hlength, List.length_cons]
          omega

namespace PipelineHandler

/-- A name counts one more if a retry of a job of that name succeeded. -/
theorem countOf_tallyRetryResults (answers : List (Job × Except PyError Job))
    (counts : List (String × ℕ)) (job : String) :
    countOf (tallyRetryResults answers counts) job =
      countOf counts job + if job ∈ (succeeded answers).map Job.name then 1 else 0 := by
  rw [tallyRetryResults, countOf_increments]
  congr 1
  have hmem : job ∈ fromkeys ((succeeded answers).map Job.name) ↔
      job ∈ (succeeded answers).map Job.name := by simp [fromkeys]
  split_ifs with hjob
  · exact List.count_eq_one_of_mem (nodup_fromkeys _) (hmem.mpr hjob)
  · exact List.count_eq_zero.mpr fun h ↦ hjob (hmem.mp h)

theorem le_countOf_tallyRetryResults (answers : List (Job × Except PyError Job))
    (counts : List (String × ℕ)) (job : String) :
    countOf counts job ≤ countOf (tallyRetryResults answers counts) job := by
  rw [countOf_tallyRetryResults]
  exact Nat.le_add_right _ _

end PipelineHandler

/-! ## What the names have spent of their limit -/

/-- The retries that the names have had, each name up to the limit. -/
def spent (names : Finset String) (limit : ℕ) (counts : List (String × ℕ)) : ℕ :=
  ∑ name ∈ names, min (countOf counts name) limit

theorem spent_le (names : Finset String) (limit : ℕ) (counts : List (String × ℕ)) :
    spent names limit counts ≤ names.card * limit :=
  Finset.sum_le_card_nsmul _ _ _ fun _ _ ↦ min_le_right _ _

theorem spent_mono (names : Finset String) (limit : ℕ) {counts counts' : List (String × ℕ)}
    (h : ∀ job, countOf counts job ≤ countOf counts' job) :
    spent names limit counts ≤ spent names limit counts' :=
  Finset.sum_le_sum fun job _ ↦ min_le_min_right limit (h job)

theorem spent_lt {names : Finset String} {limit : ℕ} {counts counts' : List (String × ℕ)}
    (h : ∀ job, countOf counts job ≤ countOf counts' job) {name : String} (hname : name ∈ names)
    (hbelow : countOf counts name < limit) (hmore : countOf counts name < countOf counts' name) :
    spent names limit counts < spent names limit counts' := by
  refine Finset.sum_lt_sum (fun job _ ↦ min_le_min_right limit (h job)) ⟨name, hname, ?_⟩
  rw [min_eq_left hbelow.le]
  exact lt_min hmore hbelow

end MergeQueue
