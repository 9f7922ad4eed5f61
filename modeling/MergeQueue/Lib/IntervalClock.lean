import Mathlib.Data.List.Induction
import Mathlib.Data.List.Sort
import Mathlib.Order.Lattice

/-!
# Interval clocks

An event that is only known to have happened somewhere in a half-open
interval is ordered against another one exactly when the two intervals are
disjoint.  A last-writer register fed with such events keeps one interval.
This module develops the register that prefers an insertion over a deletion
when their intervals overlap, and decides when its final verdict does not
depend on the order of delivery.
-/

namespace IntervalClock

variable {T : Type*} [LinearOrder T]

/-- A nonempty half-open interval `[lo, hi)`. -/
structure Span (T : Type*) [LinearOrder T] where
  lo : T
  hi : T
  lt : lo < hi
  deriving DecidableEq

namespace Span

/-- Every instant of `a` precedes every instant of `b`. -/
def Before (a b : Span T) : Prop := a.hi ≤ b.lo

instance (a b : Span T) : Decidable (a.Before b) := inferInstanceAs (Decidable (a.hi ≤ b.lo))

/-- The smallest interval that contains both. -/
def hull (a b : Span T) : Span T where
  lo := min a.lo b.lo
  hi := max a.hi b.hi
  lt := lt_of_le_of_lt (min_le_left _ _) (lt_of_lt_of_le a.lt (le_max_left _ _))

/-- `t` lies strictly inside the interval. -/
def Straddles (a : Span T) (t : T) : Prop := a.lo < t ∧ t < a.hi

theorem not_before_of_before {a b : Span T} (h : a.Before b) : ¬ b.Before a := by
  intro hba
  have hlt : a.hi < a.hi := calc
    a.hi ≤ b.lo := h
    _ < b.hi := b.lt
    _ ≤ a.lo := hba
    _ < a.hi := a.lt
  exact lt_irrefl _ hlt

theorem Before.trans {a b c : Span T} (hab : a.Before b) (hbc : b.Before c) : a.Before c :=
  le_trans hab (le_trans b.lt.le hbc)

@[simp] theorem hull_lo (a b : Span T) : (a.hull b).lo = min a.lo b.lo := rfl

@[simp] theorem hull_hi (a b : Span T) : (a.hull b).hi = max a.hi b.hi := rfl

/-- An interval that the cut `t` does not straddle lies on one side of it. -/
theorem le_or_le_of_not_straddles {a : Span T} {t : T} (h : ¬ a.Straddles t) :
    a.hi ≤ t ∨ t ≤ a.lo := by
  by_contra hsides
  push Not at hsides
  exact h ⟨hsides.2, hsides.1⟩

end Span

/-- An insertion, possibly without any source time, or a deletion. -/
inductive Event (T : Type*) [LinearOrder T]
  | insert (clock : Option (Span T))
  | delete (clock : Span T)

/-- What the register remembers of the events delivered so far. -/
inductive Register (T : Type*) [LinearOrder T]
  | empty
  | inserted (clock : Option (Span T))
  | deleted (clock : Span T)

namespace Register

/-- One delivery.  Overlap is resolved in favour of the insertion, two
overlapping insertions keep the hull of their clocks, and a deletion that is
not older than the saved deletion replaces its clock. -/
def deliver : Register T → Event T → Register T
  | empty, .insert i => inserted i
  | empty, .delete c => deleted c
  | inserted none, .insert _ => inserted none
  | inserted (some _), .insert none => inserted none
  | inserted (some a), .insert (some i) =>
      if i.Before a then inserted (some a)
      else if a.Before i then inserted (some i)
      else inserted (some (i.hull a))
  | inserted none, .delete _ => inserted none
  | inserted (some a), .delete c =>
      if a.Before c then deleted c else inserted (some a)
  | deleted _, .insert none => inserted none
  | deleted c, .insert (some i) => if i.Before c then deleted c else inserted (some i)
  | deleted c, .delete d => if d.Before c then deleted c else deleted d

def run (events : List (Event T)) : Register T := events.foldl deliver empty

/-- The register holds a live insertion. -/
def live : Register T → Bool
  | inserted _ => true
  | _ => false

end Register

/-- Some insertion is not definitely before any deletion. -/
def Admitted (events : List (Event T)) : Prop :=
  ∃ i, Event.insert i ∈ events ∧
    ∀ a, i = some a → ∀ c, Event.delete c ∈ events → ¬ a.Before c

/-- The instant `t` separates the insertions from a later deletion, and no
deletion reaches across it. -/
def CutAt (events : List (Event T)) (t : T) : Prop :=
  (∀ i, Event.insert i ∈ events → ∃ a, i = some a ∧ a.hi ≤ t) ∧
    (∃ c, Event.delete c ∈ events ∧ t ≤ c.lo) ∧
      ∀ c, Event.delete c ∈ events → ¬ c.Straddles t

/-- Outdated insertions are cut off from the deletions that outdate them. -/
def Separated (events : List (Event T)) : Prop :=
  (∃ i, Event.insert i ∈ events) → Admitted events ∨ ∃ t, CutAt events t

namespace Register

@[simp] theorem run_nil : run ([] : List (Event T)) = empty := rfl

theorem run_append (xs ys : List (Event T)) : run (xs ++ ys) = ys.foldl deliver (run xs) := by
  simp [run, List.foldl_append]

theorem run_concat (xs : List (Event T)) (e : Event T) :
    run (xs ++ [e]) = (run xs).deliver e := by
  simp [run_append]

/-- A saved deletion clock is the clock of a delivered deletion. -/
theorem delete_mem_of_run_eq_deleted {events : List (Event T)} {c : Span T}
    (h : run events = deleted c) : Event.delete c ∈ events := by
  induction events using List.reverseRecOn generalizing c with
  | nil => simp at h
  | append_singleton xs e ih =>
      rw [run_concat] at h
      have hold : ∀ {d}, run xs = deleted d → deleted d = deleted c →
          Event.delete c ∈ xs ++ [e] := by
        intro d hd heq
        cases heq
        exact List.mem_append_left _ (ih hd)
      cases e with
      | insert i =>
          cases hr : run xs with
          | empty => simp [hr, deliver] at h
          | inserted s =>
              cases s <;> cases i <;> simp only [hr, deliver] at h <;>
                (try split_ifs at h) <;> cases h
          | deleted d =>
              cases i with
              | none => simp [hr, deliver] at h
              | some i =>
                  simp only [hr, deliver] at h
                  split_ifs at h
                  exact hold hr h
      | delete d =>
          cases hr : run xs with
          | empty =>
              simp only [hr, deliver, deleted.injEq] at h
              simp [h]
          | inserted s =>
              cases s with
              | none => simp [hr, deliver] at h
              | some a =>
                  simp only [hr, deliver] at h
                  split_ifs at h
                  cases h
                  simp
          | deleted d' =>
              simp only [hr, deliver] at h
              split_ifs at h
              · exact hold hr h
              · cases h
                simp

/-! ## An insertion that no deletion outdates -/

/-- The register holds an insertion that ends no earlier than `i`. -/
def Outlasts (i : Option (Span T)) : Register T → Prop
  | inserted none => True
  | inserted (some a) => ∃ b, i = some b ∧ b.hi ≤ a.hi
  | _ => False

theorem Outlasts.live {i : Option (Span T)} {r : Register T} (h : Outlasts i r) :
    r.live = true := by
  cases r with
  | empty => exact h.elim
  | inserted s => rfl
  | deleted c => exact h.elim

theorem outlasts_insert {i : Option (Span T)} {r : Register T}
    (hr : ∀ c, r = deleted c → ∀ a, i = some a → ¬ a.Before c) :
    Outlasts i (r.deliver (.insert i)) := by
  cases i with
  | none => rcases r with _ | (_ | a) | c <;> simp [deliver, Outlasts]
  | some b =>
      rcases r with _ | (_ | a) | c
      · simp [deliver, Outlasts]
      · simp [deliver, Outlasts]
      · simp only [deliver]
        split_ifs with hba hab
        · exact ⟨b, rfl, le_trans hba a.lt.le⟩
        · exact ⟨b, rfl, le_rfl⟩
        · exact ⟨b, rfl, le_max_left _ _⟩
      · have hbc : ¬ b.Before c := hr c rfl b rfl
        simp [deliver, hbc, Outlasts]

theorem Outlasts.deliver {i : Option (Span T)} {r : Register T} (h : Outlasts i r)
    (e : Event T) (he : ∀ c, e = .delete c → ∀ a, i = some a → ¬ a.Before c) :
    Outlasts i (r.deliver e) := by
  rcases r with _ | (_ | a) | c
  · exact h.elim
  · cases e <;> simp [Register.deliver, Outlasts]
  · obtain ⟨b, rfl, hba⟩ := h
    cases e with
    | insert j =>
        cases j with
        | none => simp [Register.deliver, Outlasts]
        | some j =>
            simp only [Register.deliver]
            split_ifs with hja haj
            · exact ⟨b, rfl, hba⟩
            · exact ⟨b, rfl, le_trans hba (le_trans haj j.lt.le)⟩
            · exact ⟨b, rfl, le_trans hba (le_max_right _ _)⟩
    | delete c =>
        have hac : ¬ a.Before c := fun hac ↦ he c rfl b rfl (le_trans hba hac)
        simp only [Register.deliver, if_neg hac]
        exact ⟨b, rfl, hba⟩
  · exact h.elim

/-- In every order of delivery an admitted insertion survives. -/
theorem live_of_admitted {events : List (Event T)} (h : Admitted events) :
    (run events).live = true := by
  obtain ⟨i, hi, hclear⟩ := h
  obtain ⟨pre, post, rfl⟩ := List.append_of_mem hi
  have hstart : Outlasts i (run (pre ++ [.insert i])) := by
    rw [run_concat]
    refine outlasts_insert fun c hc a ha ↦ hclear a ha c ?_
    exact List.mem_append_left _ (delete_mem_of_run_eq_deleted hc)
  have hrun : ∀ (xs : List (Event T)) (r : Register T),
      (∀ c, Event.delete c ∈ xs → ∀ a, i = some a → ¬ a.Before c) →
      Outlasts i r → Outlasts i (xs.foldl deliver r) := by
    intro xs
    induction xs with
    | nil => exact fun r _ hr ↦ hr
    | cons e xs ih =>
        intro r hxs hr
        refine ih _ (fun c hc ↦ hxs c (List.mem_cons_of_mem _ hc)) (hr.deliver e ?_)
        rintro c rfl
        exact hxs c List.mem_cons_self
  have hfinal : Outlasts i (run (pre ++ .insert i :: post)) := by
    have hsplit : pre ++ .insert i :: post = (pre ++ [.insert i]) ++ post := by simp
    rw [hsplit, run_append]
    refine hrun post _ (fun c hc a ha ↦ hclear a ha c ?_) hstart
    exact List.mem_append_right _ (List.mem_cons_of_mem _ hc)
  exact hfinal.live

/-! ## A cut keeps every outdated insertion out -/

/-- Everything the register holds stays on one side of the cut `t`, with
insertions below it. -/
def Below (t : T) : Register T → Prop
  | empty => True
  | inserted none => False
  | inserted (some a) => a.hi ≤ t
  | deleted c => ¬ c.Straddles t

/-- The register holds a deletion from beyond the cut. -/
def Beyond (t : T) (r : Register T) : Prop := ∃ c, r = deleted c ∧ t ≤ c.lo

/-- The events that respect the cut `t`. -/
def Respects (t : T) : Event T → Prop
  | .insert i => ∃ a, i = some a ∧ a.hi ≤ t
  | .delete c => ¬ c.Straddles t

theorem Below.deliver {t : T} {r : Register T} (h : Below t r) {e : Event T}
    (he : Respects t e) : Below t (r.deliver e) := by
  cases e with
  | insert i =>
      obtain ⟨b, rfl, hb⟩ := he
      rcases r with _ | (_ | a) | c
      · exact hb
      · exact h.elim
      · simp only [Register.deliver]
        split_ifs
        · exact h
        · exact hb
        · exact max_le hb h
      · simp only [Register.deliver]
        split_ifs
        · exact h
        · exact hb
  | delete d =>
      rcases r with _ | (_ | a) | c
      · exact he
      · exact h.elim
      · simp only [Register.deliver]
        split_ifs
        · exact he
        · exact h
      · simp only [Register.deliver]
        split_ifs
        · exact h
        · exact he

theorem beyond_delete {t : T} {r : Register T} (h : Below t r) {c : Span T}
    (hc : t ≤ c.lo) : Beyond t (r.deliver (.delete c)) := by
  rcases r with _ | (_ | a) | d
  · exact ⟨c, rfl, hc⟩
  · exact h.elim
  · have hac : a.Before c := le_trans h hc
    exact ⟨c, by simp [deliver, hac], hc⟩
  · simp only [deliver]
    split_ifs with hcd
    · exact ⟨d, rfl, le_trans hc (le_trans c.lt.le hcd)⟩
    · exact ⟨c, rfl, hc⟩

theorem Beyond.deliver {t : T} {r : Register T} (h : Beyond t r) {e : Event T}
    (he : Respects t e) : Beyond t (r.deliver e) := by
  obtain ⟨c, rfl, hc⟩ := h
  cases e with
  | insert i =>
      obtain ⟨b, rfl, hb⟩ := he
      have hbc : b.Before c := le_trans hb hc
      exact ⟨c, by simp [Register.deliver, hbc], hc⟩
  | delete d =>
      simp only [Register.deliver]
      split_ifs with hdc
      · exact ⟨c, rfl, hc⟩
      · refine ⟨d, rfl, ?_⟩
        rcases Span.le_or_le_of_not_straddles he with hd | hd
        · exact absurd (le_trans hd hc) hdc
        · exact hd

/-- In every order of delivery the deletions beyond a cut have the last word. -/
theorem not_live_of_cutAt {events : List (Event T)} {t : T} (h : CutAt events t) :
    (run events).live = false := by
  obtain ⟨hinsert, ⟨c, hc, htc⟩, hdelete⟩ := h
  have hrespects : ∀ e ∈ events, Respects t e := by
    intro e he
    cases e with
    | insert i => exact hinsert i he
    | delete d => exact hdelete d he
  obtain ⟨pre, post, rfl⟩ := List.append_of_mem hc
  have hpre : Below t (run pre) := by
    have hkeep : ∀ xs : List (Event T), (∀ e ∈ xs, Respects t e) → ∀ r, Below t r →
        Below t (xs.foldl deliver r) := by
      intro xs
      induction xs with
      | nil => exact fun _ r hr ↦ hr
      | cons e xs ih =>
          intro hxs r hr
          exact ih (fun e' he' ↦ hxs e' (List.mem_cons_of_mem _ he')) _
            (hr.deliver (hxs e List.mem_cons_self))
    exact hkeep pre (fun e he ↦ hrespects e (List.mem_append_left _ he)) empty trivial
  have hpost : ∀ xs : List (Event T), (∀ e ∈ xs, Respects t e) → ∀ r, Beyond t r →
      Beyond t (xs.foldl deliver r) := by
    intro xs
    induction xs with
    | nil => exact fun _ r hr ↦ hr
    | cons e xs ih =>
        intro hxs r hr
        exact ih (fun e' he' ↦ hxs e' (List.mem_cons_of_mem _ he')) _
          (hr.deliver (hxs e List.mem_cons_self))
  obtain ⟨d, hd, _⟩ : Beyond t (run (pre ++ .delete c :: post)) := by
    rw [run_append]
    refine hpost post (fun e he ↦ hrespects e ?_) _ (beyond_delete hpre htc)
    exact List.mem_append_right _ (List.mem_cons_of_mem _ he)
  simp [hd, live]

theorem not_live_of_no_insert {events : List (Event T)}
    (h : ¬ ∃ i, Event.insert i ∈ events) : (run events).live = false := by
  induction events using List.reverseRecOn with
  | nil => rfl
  | append_singleton xs e ih =>
      have hxs : ¬ ∃ i, Event.insert i ∈ xs :=
        fun ⟨i, hi⟩ ↦ h ⟨i, List.mem_append_left _ hi⟩
      rw [run_concat]
      cases e with
      | insert i => exact absurd ⟨i, by simp⟩ h
      | delete c =>
          have hprev := ih hxs
          cases hr : run xs with
          | empty => rfl
          | inserted s => simp [hr, live] at hprev
          | deleted d =>
              simp only [deliver]
              split_ifs <;> rfl

/-! ## An order that exposes a missing cut -/

/-- The clocks of the deletions, in the order of `events`. -/
def deletions (events : List (Event T)) : List (Span T) :=
  events.filterMap fun
    | .delete c => some c
    | .insert _ => none

/-- The clocks of the insertions, in the order of `events`. -/
def insertions (events : List (Event T)) : List (Option (Span T)) :=
  events.filterMap fun
    | .insert i => some i
    | .delete _ => none

theorem mem_deletions {events : List (Event T)} {c : Span T} :
    c ∈ deletions events ↔ Event.delete c ∈ events := by
  simp only [deletions, List.mem_filterMap]
  constructor
  · rintro ⟨e, he, hc⟩
    cases e with
    | insert i => cases hc
    | delete d =>
        cases hc
        exact he
  · exact fun h ↦ ⟨.delete c, h, rfl⟩

theorem mem_insertions {events : List (Event T)} {i : Option (Span T)} :
    i ∈ insertions events ↔ Event.insert i ∈ events := by
  simp only [insertions, List.mem_filterMap]
  constructor
  · rintro ⟨e, he, hi⟩
    cases e with
    | insert j =>
        cases hi
        exact he
    | delete d => cases hi
  · exact fun h ↦ ⟨.insert i, h, rfl⟩

theorem deletions_append_insertions_perm (events : List (Event T)) :
    ((deletions events).map Event.delete ++ (insertions events).map Event.insert).Perm
      events := by
  induction events with
  | nil => exact List.Perm.refl _
  | cons e events ih =>
      cases e with
      | delete c =>
          have hd : deletions (.delete c :: events) = c :: deletions events := rfl
          have hi : insertions (.delete c :: events) = insertions events := rfl
          simpa only [hd, hi, List.map_cons, List.cons_append] using ih.cons (.delete c)
      | insert i =>
          have hd : deletions (.insert i :: events) = deletions events := rfl
          have hi : insertions (.insert i :: events) = i :: insertions events := rfl
          rw [hd, hi, List.map_cons]
          exact List.perm_middle.trans (ih.cons (.insert i))

/-- Deletions delivered from the latest start to the earliest leave a clock
whose start none of them straddles. -/
theorem run_descending {ds : List (Span T)} (hne : ds ≠ [])
    (hsorted : ds.Pairwise fun a b ↦ b.lo ≤ a.lo) :
    ∃ c ∈ ds, run (ds.map Event.delete) = deleted c ∧ ∀ d ∈ ds, ¬ d.Straddles c.lo := by
  induction ds using List.reverseRecOn with
  | nil => exact absurd rfl hne
  | append_singleton ds d ih =>
      have hself : ¬ d.Straddles d.lo := fun h ↦ lt_irrefl _ h.1
      rw [List.map_append, List.map_singleton, run_concat]
      obtain ⟨hds, -, hlast⟩ := List.pairwise_append.mp hsorted
      by_cases hnil : ds = []
      · subst hnil
        exact ⟨d, by simp, rfl, by simpa using hself⟩
      · obtain ⟨c, hc, hrun, hclear⟩ := ih hnil hds
        by_cases hdc : d.Before c
        · have hd : ¬ d.Straddles c.lo := fun h ↦ not_lt_of_ge hdc h.2
          refine ⟨c, List.mem_append_left _ hc, by simp [hrun, deliver, hdc], ?_⟩
          intro e he
          rcases List.mem_append.mp he with he | he
          · exact hclear e he
          · rwa [List.mem_singleton.mp he]
        · refine ⟨d, by simp, by simp [hrun, deliver, hdc], ?_⟩
          intro e he
          rcases List.mem_append.mp he with he | he
          · exact fun h ↦ not_lt_of_ge (hlast e he d (by simp)) h.1
          · rwa [List.mem_singleton.mp he]

theorem live_foldl_insertions (is : List (Option (Span T))) {r : Register T}
    (h : r.live = true) : ((is.map Event.insert).foldl deliver r).live = true := by
  induction is generalizing r with
  | nil => exact h
  | cons i is ih =>
      refine ih ?_
      rcases r with _ | (_ | a) | c
      · rfl
      · rfl
      · cases i with
        | none => rfl
        | some j =>
            simp only [deliver]
            split_ifs <;> rfl
      · cases h

/-- Without a cut, delivering the deletions from the latest start to the
earliest lets some insertion in. -/
theorem exists_live_of_not_cutAt {events : List (Event T)}
    (hne : deletions events ≠ []) (hcut : ∀ t, ¬ CutAt events t) :
    ∃ order : List (Event T), order.Perm events ∧ (run order).live = true := by
  let ds := (deletions events).mergeSort fun a b ↦ decide (b.lo ≤ a.lo)
  have hperm : ds.Perm (deletions events) := List.mergeSort_perm _ _
  have hsorted : ds.Pairwise fun a b ↦ b.lo ≤ a.lo := by
    have htrans : ∀ a b c : Span T, decide (b.lo ≤ a.lo) = true → decide (c.lo ≤ b.lo) = true →
        decide (c.lo ≤ a.lo) = true := by
      simp only [decide_eq_true_eq]
      exact fun a b c hab hbc ↦ le_trans hbc hab
    have htotal : ∀ a b : Span T, (decide (b.lo ≤ a.lo) || decide (a.lo ≤ b.lo)) = true := by
      intro a b
      simpa using le_total b.lo a.lo
    have hle := List.pairwise_mergeSort htrans htotal (deletions events)
    exact hle.imp fun h ↦ by simpa using h
  have hds : ds ≠ [] := fun h ↦ hne (List.nil_perm.mp (h ▸ hperm))
  obtain ⟨c, hc, hrun, hclear⟩ := run_descending hds hsorted
  have hmem : ∀ d, Event.delete d ∈ events ↔ d ∈ ds := fun d ↦
    (mem_deletions.symm).trans hperm.mem_iff.symm
  have hlate : ∃ i, Event.insert i ∈ events ∧ ∀ a, i = some a → ¬ a.Before c := by
    by_contra hall
    push Not at hall
    refine hcut c.lo ⟨?_, ⟨c, (hmem c).mpr hc, le_rfl⟩, fun d hd ↦ hclear d ((hmem d).mp hd)⟩
    intro i hi
    obtain ⟨a, ha, hac⟩ := hall i hi
    exact ⟨a, ha, hac⟩
  obtain ⟨i, hi, hic⟩ := hlate
  obtain ⟨rest, hrest⟩ : ∃ rest, (insertions events).Perm (i :: rest) := by
    obtain ⟨pre, post, h⟩ := List.append_of_mem (mem_insertions.mpr hi)
    exact ⟨pre ++ post, h ▸ List.perm_middle⟩
  refine ⟨ds.map .delete ++ (i :: rest).map .insert, ?_, ?_⟩
  · exact ((hperm.map _).append (hrest.map _).symm).trans
      (deletions_append_insertions_perm events)
  · rw [run_append, hrun, List.map_cons, List.foldl_cons]
    apply live_foldl_insertions
    cases i with
    | none => rfl
    | some a => simp [deliver, hic a rfl, live]

/-- The verdict is the same for every order of delivery, and is the intended
one, exactly when the outdated insertions are cut off. -/
theorem run_live_iff_admitted_iff_separated (events : List (Event T)) :
    (∀ order : List (Event T), order.Perm events →
        ((run order).live = true ↔ Admitted events)) ↔ Separated events := by
  constructor
  · intro horder hinsert
    by_contra hno
    push Not at hno
    obtain ⟨hadmitted, hcut⟩ := hno
    have hdelete : deletions events ≠ [] := by
      intro hnil
      obtain ⟨i, hi⟩ := hinsert
      refine hadmitted ⟨i, hi, fun a _ c hc ↦ ?_⟩
      rw [← mem_deletions, hnil] at hc
      cases hc
    obtain ⟨order, hperm, hlive⟩ := exists_live_of_not_cutAt hdelete hcut
    exact hadmitted ((horder order hperm).mp hlive)
  · intro hseparated order hperm
    have hmem : ∀ e, e ∈ order ↔ e ∈ events := fun e ↦ hperm.mem_iff
    by_cases hinsert : ∃ i, Event.insert i ∈ events
    · rcases hseparated hinsert with hadmitted | ⟨t, hcut⟩
      · have horder : Admitted order := by simpa only [Admitted, hmem] using hadmitted
        exact iff_of_true (live_of_admitted horder) hadmitted
      · have horder : CutAt order t := by simpa only [CutAt, hmem] using hcut
        refine iff_of_false (by simp [not_live_of_cutAt horder]) ?_
        rintro ⟨i, hi, hclear⟩
        obtain ⟨hbelow, ⟨c, hc, htc⟩, -⟩ := hcut
        obtain ⟨a, rfl, ha⟩ := hbelow i hi
        exact hclear a rfl c hc (le_trans ha htc)
    · have horder : ¬ ∃ i, Event.insert i ∈ order := by simpa only [hmem] using hinsert
      refine iff_of_false (by simp [not_live_of_no_insert horder]) ?_
      rintro ⟨i, hi, -⟩
      exact hinsert ⟨i, hi⟩

end Register

end IntervalClock
