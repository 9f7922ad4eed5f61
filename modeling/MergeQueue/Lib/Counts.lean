import Mathlib.Tactic.Common
import Mathlib.Algebra.BigOperators.Group.List.Basic
import Mathlib.Algebra.GroupWithZero.Nat
import Mathlib.Algebra.Order.Group.Nat
import Mathlib.Data.List.Nodup

/-!
# Counts by name

A dictionary from names to numbers, in the order in which the names were inserted.  A tally
counts how often each name occurs in a list: no name has two entries, and the counts add up
to the length of the list.
-/

namespace Counts

variable {κ : Type*} [DecidableEq κ]

/-- `dict[name] = count`. -/
def setCount (counts : List (κ × ℕ)) (name : κ) (count : ℕ) : List (κ × ℕ) :=
  if counts.any fun entry ↦ entry.1 = name then
    counts.map fun entry ↦ if entry.1 = name then (name, count) else entry
  else counts ++ [(name, count)]

/-- `dict.get(name, 0)`. -/
def countOf (counts : List (κ × ℕ)) (name : κ) : ℕ := (counts.lookup name).getD 0

@[simp] theorem countOf_nil (key : κ) : countOf [] key = 0 := rfl

theorem countOf_cons (name key : κ) (count : ℕ) (counts : List (κ × ℕ)) :
    countOf ((name, count) :: counts) key = if key = name then count else countOf counts key := by
  unfold countOf
  by_cases hkey : key = name
  · subst hkey
    simp
  · have hfalse : (key == name) = false := beq_false_of_ne hkey
    rw [List.lookup_cons, hfalse, if_neg hkey]

theorem countOf_append_of_absent {counts : List (κ × ℕ)} {name : κ} (count : ℕ)
    (habsent : ∀ entry ∈ counts, entry.1 ≠ name) (key : κ) :
    countOf (counts ++ [(name, count)]) key = if key = name then count else countOf counts key := by
  induction counts with
  | nil => exact countOf_cons name key count []
  | cons entry counts ih =>
      obtain ⟨head, seen⟩ := entry
      have hhead : head ≠ name := habsent _ List.mem_cons_self
      rw [List.cons_append, countOf_cons, countOf_cons,
        ih fun entry hentry ↦ habsent entry (List.mem_cons_of_mem _ hentry)]
      by_cases hkey : key = head
      · simp [hkey, hhead]
      · simp [hkey]

theorem countOf_map_self {counts : List (κ × ℕ)} {name : κ} (count : ℕ)
    (hpresent : ∃ entry ∈ counts, entry.1 = name) :
    countOf (counts.map fun entry ↦ if entry.1 = name then (name, count) else entry) name =
      count := by
  induction counts with
  | nil =>
      obtain ⟨entry, hentry, -⟩ := hpresent
      cases hentry
  | cons entry counts ih =>
      obtain ⟨head, seen⟩ := entry
      rw [List.map_cons]
      by_cases hhead : head = name
      · rw [if_pos hhead, countOf_cons, if_pos rfl]
      · rw [if_neg hhead, countOf_cons, if_neg (Ne.symm hhead)]
        obtain ⟨entry, hentry, hname⟩ := hpresent
        rcases List.mem_cons.mp hentry with rfl | hentry
        · exact absurd hname hhead
        · exact ih ⟨entry, hentry, hname⟩

theorem countOf_map_of_ne (counts : List (κ × ℕ)) {name key : κ} (count : ℕ)
    (hkey : key ≠ name) :
    countOf (counts.map fun entry ↦ if entry.1 = name then (name, count) else entry) key =
      countOf counts key := by
  induction counts with
  | nil => rfl
  | cons entry counts ih =>
      obtain ⟨head, seen⟩ := entry
      rw [List.map_cons, countOf_cons]
      by_cases hhead : head = name
      · rw [if_pos hhead, countOf_cons, if_neg hkey, if_neg (hhead ▸ hkey), ih]
      · rw [if_neg hhead, countOf_cons, ih]

/-- `dict[name] = count` is read back, and nothing else changes. -/
theorem countOf_setCount (counts : List (κ × ℕ)) (name key : κ) (count : ℕ) :
    countOf (setCount counts name count) key =
      if key = name then count else countOf counts key := by
  unfold setCount
  split
  · next hpresent =>
      have hpresent : ∃ entry ∈ counts, entry.1 = name := by simpa using hpresent
      by_cases hkey : key = name
      · rw [if_pos hkey, hkey, countOf_map_self count hpresent]
      · rw [if_neg hkey, countOf_map_of_ne counts count hkey]
  · next habsent =>
      have habsent : ∀ entry ∈ counts, entry.1 ≠ name := fun entry hentry hname ↦
        habsent (List.any_eq_true.mpr ⟨entry, hentry, decide_eq_true hname⟩)
      exact countOf_append_of_absent count habsent key

/-! ## Names and totals -/

def names (counts : List (κ × ℕ)) : List κ := counts.map Prod.fst

def total (counts : List (κ × ℕ)) : ℕ := (counts.map Prod.snd).sum

omit [DecidableEq κ] in
@[simp] theorem total_nil : total ([] : List (κ × ℕ)) = 0 := rfl

omit [DecidableEq κ] in
@[simp] theorem total_cons (entry : κ × ℕ) (counts : List (κ × ℕ)) :
    total (entry :: counts) = entry.2 + total counts := by
  simp [total]

/-- The names are kept, and a new one is put at the end. -/
theorem names_setCount (counts : List (κ × ℕ)) (name : κ) (count : ℕ) :
    names (setCount counts name count) =
      if name ∈ names counts then names counts else names counts ++ [name] := by
  have hany : (counts.any fun entry ↦ entry.1 = name) = true ↔ name ∈ names counts := by
    simp [names]
  unfold setCount
  by_cases hname : name ∈ names counts
  · rw [if_pos (hany.mpr hname), if_pos hname, names, List.map_map]
    refine List.map_congr_left fun entry _ ↦ ?_
    by_cases hentry : entry.1 = name
    · simp [hentry]
    · simp [hentry]
  · rw [if_neg (mt hany.mp hname), if_neg hname]
    simp [names]

theorem nodup_setCount {counts : List (κ × ℕ)} (h : (names counts).Nodup) (name : κ) (count : ℕ) :
    (names (setCount counts name count)).Nodup := by
  rw [names_setCount]
  split_ifs with hname
  · exact h
  · rw [List.nodup_append]
    refine ⟨h, List.nodup_singleton _, fun key hkey last hlast ↦ ?_⟩
    rintro rfl
    exact hname (List.mem_singleton.mp hlast ▸ hkey)

/-- Entries of other names are left as they are. -/
theorem map_of_absent {counts : List (κ × ℕ)} {name : κ} (count : ℕ) (h : name ∉ names counts) :
    (counts.map fun entry ↦ if entry.1 = name then (name, count) else entry) = counts := by
  refine (List.map_congr_left fun entry hentry ↦ ?_).trans (List.map_id counts)
  rw [if_neg]
  · rfl
  · rintro rfl
    exact h (List.mem_map_of_mem hentry)

theorem countOf_of_absent {counts : List (κ × ℕ)} {name : κ} (h : name ∉ names counts) :
    countOf counts name = 0 := by
  induction counts with
  | nil => rfl
  | cons entry counts ih =>
      have hne : name ≠ entry.1 := fun heq ↦ h (heq ▸ List.mem_cons_self)
      rw [countOf_cons, if_neg hne]
      exact ih fun hmem ↦ h (List.mem_cons_of_mem _ hmem)

/-- The total changes as the count of the name does. -/
theorem total_setCount {counts : List (κ × ℕ)} (h : (names counts).Nodup) (name : κ) (count : ℕ) :
    total (setCount counts name count) + countOf counts name = total counts + count := by
  unfold setCount
  split
  · next hany =>
      have hpresent : name ∈ names counts := by simpa [names] using hany
      clear hany
      induction counts with
      | nil => cases hpresent
      | cons entry counts ih =>
          obtain ⟨head, seen⟩ := entry
          obtain ⟨hhead, htail⟩ := List.nodup_cons.mp h
          rw [List.map_cons, total_cons, total_cons, countOf_cons]
          by_cases heq : head = name
          · subst heq
            rw [if_pos rfl, if_pos rfl, map_of_absent count hhead]
            omega
          · rw [if_neg heq, if_neg (Ne.symm heq)]
            have hrest : name ∈ names counts := by
              rcases List.mem_cons.mp hpresent with hname | hname
              · exact absurd hname (Ne.symm heq)
              · exact hname
            have hsum := ih htail hrest
            omega
  · next habsent =>
      have habsent : name ∉ names counts := by simpa [names] using habsent
      rw [countOf_of_absent habsent]
      simp [total]

/-! ## Tallies -/

/-- How often each name occurs. -/
def tally (xs : List κ) : List (κ × ℕ) :=
  xs.foldl (fun counts name ↦ setCount counts name (countOf counts name + 1)) []

theorem countOf_increments (names : List κ) (counts : List (κ × ℕ)) (key : κ) :
    countOf (names.foldl (fun counts name ↦ setCount counts name (countOf counts name + 1)) counts)
      key = countOf counts key + names.count key := by
  induction names generalizing counts with
  | nil => simp
  | cons name names ih =>
      rw [List.foldl_cons, ih, countOf_setCount, List.count_cons]
      by_cases hkey : key = name
      · subst hkey
        simp
        omega
      · simp [hkey, Ne.symm hkey]

theorem nodup_increments (xs : List κ) {counts : List (κ × ℕ)} (h : (names counts).Nodup) :
    (names (xs.foldl (fun counts name ↦ setCount counts name (countOf counts name + 1))
      counts)).Nodup := by
  induction xs generalizing counts with
  | nil => exact h
  | cons name xs ih => exact ih (nodup_setCount h name _)

theorem total_increments (xs : List κ) {counts : List (κ × ℕ)} (h : (names counts).Nodup) :
    total (xs.foldl (fun counts name ↦ setCount counts name (countOf counts name + 1)) counts) =
      total counts + xs.length := by
  induction xs generalizing counts with
  | nil => rfl
  | cons name xs ih =>
      rw [List.foldl_cons, ih (nodup_setCount h name _), List.length_cons]
      have hone := total_setCount h name (countOf counts name + 1)
      omega

theorem countOf_tally (xs : List κ) (key : κ) : countOf (tally xs) key = xs.count key := by
  rw [tally, countOf_increments, countOf_nil, Nat.zero_add]

theorem nodup_tally (xs : List κ) : (names (tally xs)).Nodup := nodup_increments xs List.nodup_nil

theorem total_tally (xs : List κ) : total (tally xs) = xs.length := by
  have hempty : (names ([] : List (κ × ℕ))).Nodup := List.nodup_nil
  rw [tally, total_increments xs hempty, total_nil, Nat.zero_add]

/-- An entry of a dictionary is what is read back. -/
theorem countOf_of_mem {counts : List (κ × ℕ)} (h : (names counts).Nodup) {entry : κ × ℕ}
    (hentry : entry ∈ counts) : countOf counts entry.1 = entry.2 := by
  induction counts with
  | nil => cases hentry
  | cons head counts ih =>
      obtain ⟨hhead, htail⟩ := List.nodup_cons.mp h
      rw [countOf_cons]
      rcases List.mem_cons.mp hentry with rfl | hrest
      · rw [if_pos rfl]
      · have hne : entry.1 ≠ head.1 := by
          intro heq
          exact hhead (heq ▸ List.mem_map_of_mem hrest)
        rw [if_neg hne, ih htail hrest]

/-- The order of the entries does not matter. -/
theorem countOf_perm {counts counts' : List (κ × ℕ)} (h : counts.Perm counts')
    (hnodup : (names counts).Nodup) (key : κ) : countOf counts key = countOf counts' key := by
  by_cases hkey : key ∈ names counts
  · obtain ⟨entry, hentry, rfl⟩ := List.mem_map.mp hkey
    have hnodup' : (names counts').Nodup := (h.map Prod.fst).nodup_iff.mp hnodup
    rw [countOf_of_mem hnodup hentry, countOf_of_mem hnodup' (h.mem_iff.mp hentry)]
  · have hkey' : key ∉ names counts' := mt (h.map Prod.fst).mem_iff.mpr hkey
    rw [countOf_of_absent hkey, countOf_of_absent hkey']

end Counts
