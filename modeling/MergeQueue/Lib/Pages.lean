import Mathlib.Tactic.Common
import Mathlib.Algebra.Order.Group.Nat
import Mathlib.Data.List.Basic
import Mathlib.Data.Nat.Basic

/-!
# Pages of a list

A list is cut into pages of one size, counted from one.  Read in order up to the number of
pages, they are the list, and all but the last are full.
-/

namespace Pages

variable {α β : Type*} (l : List α) (perPage : ℕ)

/-- The page with the number `p`. -/
def page (p : ℕ) : List α := (l.drop ((p - 1) * perPage)).take perPage

/-- The number of pages; an empty list has one. -/
def count (total perPage : ℕ) : ℕ :=
  if 0 < total then (total + perPage - 1) / perPage else 1

variable {l perPage}

@[simp] theorem page_succ (p : ℕ) : page l perPage (p + 1) = (l.drop (p * perPage)).take perPage :=
  rfl

theorem length_page_succ (p : ℕ) :
    (page l perPage (p + 1)).length = min perPage (l.length - p * perPage) := by
  rw [page_succ, List.length_take, List.length_drop]

/-- The first pages are the beginning of the list. -/
theorem flatMap_page_take (m : ℕ) :
    (List.range' 1 m).flatMap (page l perPage) = l.take (m * perPage) := by
  induction m with
  | zero => simp
  | succ m ih =>
      have hlast : List.range' 1 (m + 1) = List.range' 1 m ++ [m + 1] := by
        rw [List.range'_concat, Nat.one_mul, Nat.add_comm 1 m]
      rw [hlast, List.flatMap_append, ih, List.flatMap_singleton, page_succ, Nat.succ_mul,
        List.take_add]

theorem le_count_mul {total : ℕ} (hpage : 0 < perPage) : total ≤ count total perPage * perPage := by
  unfold count
  split_ifs with htotal
  · have hdiv := Nat.div_add_mod (total + perPage - 1) perPage
    have hmod := Nat.mod_lt (total + perPage - 1) hpage
    rw [Nat.mul_comm] at hdiv
    omega
  · omega

/-- The pages before the last one lie within the list. -/
theorem mul_le_of_lt_count {total p : ℕ} (hpage : 0 < perPage) (hp : p < count total perPage) :
    p * perPage ≤ total - 1 := by
  unfold count at hp
  split_ifs at hp with htotal
  · have hle : p + 1 ≤ (total + perPage - 1) / perPage := hp
    rw [Nat.le_div_iff_mul_le hpage, Nat.succ_mul] at hle
    omega
  · rw [Nat.lt_one_iff.mp hp, Nat.zero_mul]
    exact Nat.zero_le _

theorem flatMap_page (hpage : 0 < perPage) :
    (List.range' 1 (count l.length perPage)).flatMap (page l perPage) = l := by
  rw [flatMap_page_take, List.take_of_length_le (le_count_mul hpage)]

/-- Every page but the last is full. -/
theorem length_page_of_lt_count {p : ℕ} (hpage : 0 < perPage) (hfirst : 1 ≤ p)
    (hp : p < count l.length perPage) : (page l perPage p).length = perPage := by
  obtain ⟨q, rfl⟩ := Nat.exists_eq_add_of_le hfirst
  rw [Nat.add_comm, length_page_succ]
  have hfull := mul_le_of_lt_count hpage hp
  rw [Nat.add_mul, Nat.one_mul] at hfull
  have hcount : 0 < l.length := by
    by_contra hempty
    rw [Nat.eq_zero_of_not_pos hempty] at hp
    simp only [count, Nat.lt_irrefl, if_false] at hp
    omega
  omega

/-- What holds of every page holds of the list, and conversely. -/
theorem filter_flatMap_page (p : α → Bool) (hpage : 0 < perPage) :
    (List.range' 1 (count l.length perPage)).flatMap (fun n ↦ (page l perPage n).filter p) =
      l.filter p := by
  rw [← List.filter_flatMap, flatMap_page hpage]

end Pages
