import Mathlib.Data.List.Basic
import Mathlib.Data.List.Pairwise
import Mathlib.Order.Nat
import Mathlib.Tactic.Common

/-!
# Tables with a growing identity and a unique key

A table keeps its rows in the order of their identities, hands out identities
that were never used before, and never stores two rows with one key.  These
three facts are fields of the table, so that no operation can lose them.
-/

/-- Rows that carry an identity number and a key. -/
class Keyed (ρ : Type*) (κ : outParam Type*) where
  rowId : ρ → ℕ
  key : ρ → κ

/-- A table whose next identity is above all identities in use. -/
structure KeyedTable (ρ : Type*) {κ : Type*} [Keyed ρ κ] where
  rows : List ρ
  nextId : ℕ
  ordered : rows.Pairwise fun a b ↦ Keyed.rowId a < Keyed.rowId b
  below : ∀ r ∈ rows, Keyed.rowId r < nextId
  unique : rows.Pairwise fun a b ↦ Keyed.key a ≠ Keyed.key b

namespace KeyedTable

variable {ρ κ : Type*} [Keyed ρ κ]

open Keyed

@[ext] theorem ext {t u : KeyedTable ρ} (hrows : t.rows = u.rows)
    (hnext : t.nextId = u.nextId) : t = u := by
  cases t
  cases u
  cases hrows
  cases hnext
  rfl

instance [DecidableEq ρ] : DecidableEq (KeyedTable ρ) := fun t u ↦
  decidable_of_iff (t.rows = u.rows ∧ t.nextId = u.nextId)
    ⟨fun h ↦ ext h.1 h.2, fun h ↦ h ▸ ⟨rfl, rfl⟩⟩

/-- The table with no rows; identities start at one. -/
def empty : KeyedTable ρ where
  rows := []
  nextId := 1
  ordered := List.Pairwise.nil
  below := by simp
  unique := List.Pairwise.nil

theorem eq_of_key_eq (t : KeyedTable ρ) {r s : ρ} (hr : r ∈ t.rows) (hs : s ∈ t.rows)
    (h : key r = key s) : r = s := by
  by_contra hne
  have : Std.Symm fun a b : ρ ↦ key a ≠ key b := ⟨fun _ _ hab ↦ hab.symm⟩
  exact t.unique.forall hr hs hne h

theorem eq_of_rowId_eq (t : KeyedTable ρ) {r s : ρ} (hr : r ∈ t.rows) (hs : s ∈ t.rows)
    (h : rowId r = rowId s) : r = s := by
  by_contra hne
  have : Std.Symm fun a b : ρ ↦ rowId a ≠ rowId b := ⟨fun _ _ hab ↦ hab.symm⟩
  have hids : t.rows.Pairwise fun a b ↦ rowId a ≠ rowId b := t.ordered.imp Nat.ne_of_lt
  exact hids.forall hr hs hne h

/-! ## Selection -/

/-- The row with the key `k`. -/
def byKey [DecidableEq κ] (t : KeyedTable ρ) (k : κ) : Option ρ :=
  t.rows.find? fun r ↦ decide (key r = k)

/-- The row with the identity `n`. -/
def byId (t : KeyedTable ρ) (n : ℕ) : Option ρ := t.rows.find? fun r ↦ decide (rowId r = n)

theorem byKey_eq_some_iff [DecidableEq κ] {t : KeyedTable ρ} {k : κ} {r : ρ} :
    t.byKey k = some r ↔ r ∈ t.rows ∧ key r = k := by
  constructor
  · intro h
    exact ⟨List.mem_of_find?_eq_some h, by simpa using List.find?_some h⟩
  · rintro ⟨hr, rfl⟩
    cases hfind : t.byKey (key r) with
    | none =>
        have hall := List.find?_eq_none.mp hfind r hr
        simp at hall
    | some s =>
        have hs : s ∈ t.rows := List.mem_of_find?_eq_some hfind
        have hkey : key s = key r := by simpa using List.find?_some hfind
        rw [t.eq_of_key_eq hs hr hkey]

theorem byId_eq_some_iff {t : KeyedTable ρ} {n : ℕ} {r : ρ} :
    t.byId n = some r ↔ r ∈ t.rows ∧ rowId r = n := by
  constructor
  · intro h
    exact ⟨List.mem_of_find?_eq_some h, by simpa using List.find?_some h⟩
  · rintro ⟨hr, rfl⟩
    cases hfind : t.byId (rowId r) with
    | none =>
        have hall := List.find?_eq_none.mp hfind r hr
        simp at hall
    | some s =>
        have hs : s ∈ t.rows := List.mem_of_find?_eq_some hfind
        have hid : rowId s = rowId r := by simpa using List.find?_some hfind
        rw [t.eq_of_rowId_eq hs hr hid]

theorem byKey_eq_none_iff [DecidableEq κ] {t : KeyedTable ρ} {k : κ} :
    t.byKey k = none ↔ ∀ r ∈ t.rows, key r ≠ k := by
  simp [byKey]

theorem byId_eq_none_iff {t : KeyedTable ρ} {n : ℕ} :
    t.byId n = none ↔ ∀ r ∈ t.rows, rowId r ≠ n := by
  simp [byId]

/-- A condition that fixes the identity selects the row that carries it. -/
theorem find?_eq_some_of_byId {t : KeyedTable ρ} {n : ℕ} {r : ρ} {p : ρ → Bool}
    (hr : t.byId n = some r) (hpr : p r = true) (hp : ∀ s, p s = true → rowId s = n) :
    t.rows.find? p = some r := by
  obtain ⟨hmem, hid⟩ := byId_eq_some_iff.mp hr
  cases hfind : t.rows.find? p with
  | none => exact absurd hpr (List.find?_eq_none.mp hfind r hmem)
  | some s =>
      have hs : s ∈ t.rows := List.mem_of_find?_eq_some hfind
      have hids : rowId s = n := hp s (List.find?_some hfind)
      rw [t.eq_of_rowId_eq hs hmem (hids.trans hid.symm)]

theorem mem_of_byKey [DecidableEq κ] {t : KeyedTable ρ} {k : κ} {r : ρ} (h : t.byKey k = some r) :
    r ∈ t.rows := (byKey_eq_some_iff.mp h).1

theorem key_of_byKey [DecidableEq κ] {t : KeyedTable ρ} {k : κ} {r : ρ} (h : t.byKey k = some r) :
    key r = k := (byKey_eq_some_iff.mp h).2

/-- A key selects at most one row. -/
theorem filter_key [DecidableEq κ] (t : KeyedTable ρ) (k : κ) :
    t.rows.filter (fun r ↦ decide (key r = k)) = (t.byKey k).toList := by
  rw [byKey]
  have hunique := t.unique
  generalize t.rows = rows at hunique
  induction rows with
  | nil => rfl
  | cons r rows ih =>
      obtain ⟨hfirst, hrest⟩ := List.pairwise_cons.mp hunique
      by_cases hr : key r = k
      · have hnone : rows.filter (fun s ↦ decide (key s = k)) = [] := by
          rw [List.filter_eq_nil_iff]
          intro s hs hkey
          exact hfirst s hs (hr.trans (of_decide_eq_true hkey).symm)
        simp [hr, hnone]
      · simpa [hr] using ih hrest

/-- Rows that are changed one by one keep their places. -/
theorem byKey_of_rows_eq_map [DecidableEq κ] {t u : KeyedTable ρ} {f : ρ → ρ}
    (hrows : u.rows = t.rows.map f) (hf : ∀ r, key (f r) = key r) (k : κ) :
    u.byKey k = (t.byKey k).map f := by
  simp only [byKey, hrows, List.find?_map]
  congr 2
  funext r
  simp only [Function.comp_apply, hf]

/-! ## Update -/

/-- Applies `f` to the rows that satisfy `p`; identities and keys stay. -/
def updateWhere (t : KeyedTable ρ) (p : ρ → Bool) (f : ρ → ρ)
    (hf : ∀ r, rowId (f r) = rowId r ∧ key (f r) = key r := by
      intro r
      exact ⟨rfl, rfl⟩) : KeyedTable ρ where
  rows := t.rows.map fun r ↦ if p r then f r else r
  nextId := t.nextId
  ordered := by
    refine List.pairwise_map.mpr (t.ordered.imp ?_)
    intro a b hab
    have ha : rowId (if p a then f a else a) = rowId a := by split_ifs <;> simp [(hf a).1]
    have hb : rowId (if p b then f b else b) = rowId b := by split_ifs <;> simp [(hf b).1]
    rwa [ha, hb]
  below := by
    intro r hr
    obtain ⟨s, hs, rfl⟩ := List.mem_map.mp hr
    have hid : rowId (if p s then f s else s) = rowId s := by split_ifs <;> simp [(hf s).1]
    exact hid ▸ t.below s hs
  unique := by
    refine List.pairwise_map.mpr (t.unique.imp ?_)
    intro a b hab
    have ha : key (if p a then f a else a) = key a := by split_ifs <;> simp [(hf a).2]
    have hb : key (if p b then f b else b) = key b := by split_ifs <;> simp [(hf b).2]
    rwa [ha, hb]

section Update

variable {p : ρ → Bool} {f : ρ → ρ} {hf : ∀ r, rowId (f r) = rowId r ∧ key (f r) = key r}

@[simp] theorem updateWhere_nextId (t : KeyedTable ρ) :
    (t.updateWhere p f hf).nextId = t.nextId := rfl

@[simp] theorem updateWhere_rows (t : KeyedTable ρ) :
    (t.updateWhere p f hf).rows = t.rows.map fun r ↦ if p r then f r else r := rfl

theorem mem_updateWhere {t : KeyedTable ρ} {r : ρ} :
    r ∈ (t.updateWhere p f hf).rows ↔ ∃ s ∈ t.rows, (if p s then f s else s) = r := by
  simp

theorem rowId_updated (hf : ∀ r, rowId (f r) = rowId r ∧ key (f r) = key r) (r : ρ) :
    rowId (if p r then f r else r) = rowId r := by
  split_ifs
  · exact (hf r).1
  · rfl

theorem key_updated (hf : ∀ r, rowId (f r) = rowId r ∧ key (f r) = key r) (r : ρ) :
    key (if p r then f r else r) = key r := by
  split_ifs
  · exact (hf r).2
  · rfl

theorem byKey_updateWhere [DecidableEq κ] (t : KeyedTable ρ) (k : κ) :
    (t.updateWhere p f hf).byKey k = (t.byKey k).map fun r ↦ if p r then f r else r :=
  byKey_of_rows_eq_map rfl (key_updated hf) k

theorem byId_updateWhere (t : KeyedTable ρ) (n : ℕ) :
    (t.updateWhere p f hf).byId n = (t.byId n).map fun r ↦ if p r then f r else r := by
  simp only [byId, updateWhere_rows, List.find?_map]
  congr 2
  funext r
  simp only [Function.comp_apply, rowId_updated hf]

/-- An update that selects no row leaves the table as it was. -/
theorem updateWhere_eq_self {t : KeyedTable ρ} (h : ∀ r ∈ t.rows, p r = false) :
    t.updateWhere p f hf = t := by
  refine ext ?_ rfl
  rw [updateWhere_rows]
  refine (List.map_congr_left fun r hr ↦ ?_).trans (List.map_id _)
  simp [h r hr]

theorem updateWhere_of_any_eq_false {t : KeyedTable ρ} (h : t.rows.any p = false) :
    t.updateWhere p f hf = t :=
  updateWhere_eq_self fun r hr ↦ Bool.not_eq_true _ ▸ List.any_eq_false.mp h r hr

section Batch

variable {ι : Type*} {ids : ι → ℕ} {select : ι → ρ → Bool} {set : ι → ρ → ρ}
  {hset : ∀ i r, rowId (set i r) = rowId r ∧ key (set i r) = key r}

/-- In a batch of updates of different rows, each row is updated at most once. -/
theorem foldl_updateWhere_rows (hselect : ∀ i r, select i r = true → rowId r = ids i)
    {batch : List ι} (hnodup : (batch.map ids).Nodup) (t : KeyedTable ρ) :
    (batch.foldl (fun t i ↦ t.updateWhere (select i) (set i) (hset i)) t).rows =
      t.rows.map fun r ↦ (batch.find? fun i ↦ select i r).elim r fun i ↦ set i r := by
  induction batch generalizing t with
  | nil => simp
  | cons i batch ih =>
      obtain ⟨hfirst, hrest⟩ := List.nodup_cons.mp hnodup
      rw [List.foldl_cons, ih hrest, updateWhere_rows, List.map_map]
      refine List.map_congr_left fun r _ ↦ ?_
      simp only [Function.comp_apply, List.find?_cons]
      cases hi : select i r with
      | false => simp
      | true =>
          -- a row that was updated has the identity of no later update
          have hlater : batch.find? (fun j ↦ select j (set i r)) = none := by
            rw [List.find?_eq_none]
            intro j hj hsel
            have hid : ids j = ids i :=
              (hselect j _ hsel).symm.trans (((hset i r).1).trans (hselect i r hi))
            exact hfirst (hid ▸ List.mem_map_of_mem hj)
          simp [hlater]

theorem foldl_updateWhere_nextId (batch : List ι) (t : KeyedTable ρ) :
    (batch.foldl (fun t i ↦ t.updateWhere (select i) (set i) (hset i)) t).nextId = t.nextId := by
  induction batch generalizing t with
  | nil => rfl
  | cons i batch ih => rw [List.foldl_cons, ih, updateWhere_nextId]

end Batch

end Update

/-! ## Deletion -/

/-- Drops the rows that satisfy `p`.  Their identities are not reused. -/
def deleteWhere (t : KeyedTable ρ) (p : ρ → Bool) : KeyedTable ρ where
  rows := t.rows.filter fun r ↦ !p r
  nextId := t.nextId
  ordered := t.ordered.filter _
  below := fun r hr ↦ t.below r (List.mem_of_mem_filter hr)
  unique := t.unique.filter _

@[simp] theorem deleteWhere_nextId (t : KeyedTable ρ) (p : ρ → Bool) :
    (t.deleteWhere p).nextId = t.nextId := rfl

theorem mem_deleteWhere {t : KeyedTable ρ} {p : ρ → Bool} {r : ρ} :
    r ∈ (t.deleteWhere p).rows ↔ r ∈ t.rows ∧ p r = false := by
  simp [deleteWhere]

theorem byKey_deleteWhere_eq_some_iff [DecidableEq κ] {t : KeyedTable ρ} {p : ρ → Bool} {k : κ}
    {r : ρ} : (t.deleteWhere p).byKey k = some r ↔ t.byKey k = some r ∧ p r = false := by
  simp only [byKey_eq_some_iff, mem_deleteWhere]
  tauto

theorem byKey_deleteWhere_of_forall [DecidableEq κ] {t : KeyedTable ρ} {p : ρ → Bool} {k : κ}
    (h : ∀ r, key r = k → p r = false) : (t.deleteWhere p).byKey k = t.byKey k := by
  refine Option.ext fun r ↦ ?_
  rw [byKey_deleteWhere_eq_some_iff]
  exact and_iff_left_of_imp fun hr ↦ h r (key_of_byKey hr)

theorem byId_deleteWhere_eq_some_iff {t : KeyedTable ρ} {p : ρ → Bool} {n : ℕ} {r : ρ} :
    (t.deleteWhere p).byId n = some r ↔ t.byId n = some r ∧ p r = false := by
  simp only [byId_eq_some_iff, mem_deleteWhere]
  tauto

theorem byKey_deleteWhere_self [DecidableEq κ] {t : KeyedTable ρ} {p : ρ → Bool} {r : ρ}
    (hr : r ∈ t.rows) (hp : p r = true) : (t.deleteWhere p).byKey (key r) = none := by
  rw [byKey_eq_none_iff]
  intro s hs hkey
  obtain ⟨hs, hps⟩ := mem_deleteWhere.mp hs
  rw [t.eq_of_key_eq hs hr hkey, hp] at hps
  cases hps

/-- The deleted rows and the others are the rows of the table. -/
theorem filter_append_deleteWhere_perm (t : KeyedTable ρ) (p : ρ → Bool) :
    (t.rows.filter p ++ (t.deleteWhere p).rows).Perm t.rows :=
  List.filter_append_perm p t.rows

/-- A condition that fixes the identity selects at most one row. -/
theorem filter_of_rowId (t : KeyedTable ρ) {n : ℕ} {p : ρ → Bool}
    (hp : ∀ r, p r = true → rowId r = n) : t.rows.filter p = (t.rows.find? p).toList := by
  have hordered := t.ordered
  generalize t.rows = rows at hordered
  induction rows with
  | nil => rfl
  | cons r rows ih =>
      obtain ⟨hfirst, hrest⟩ := List.pairwise_cons.mp hordered
      cases hr : p r with
      | false => simpa [hr] using ih hrest
      | true =>
          have hnone : rows.filter p = [] := by
            rw [List.filter_eq_nil_iff]
            intro s hs hps
            have hlt := hfirst s hs
            rw [hp r hr, hp s hps] at hlt
            exact lt_irrefl _ hlt
          simp [hr, hnone]

/-! ## Insertion -/

section Insert

variable [DecidableEq κ]

/-- Appends the row made for the next identity, unless its key is taken. -/
def insertOrIgnore (t : KeyedTable ρ) (mk : ℕ → ρ)
    (hmk : ∀ n, rowId (mk n) = n := by
      intro n
      rfl) : KeyedTable ρ :=
  if h : t.byKey (key (mk t.nextId)) = none then
    { rows := t.rows ++ [mk t.nextId]
      nextId := t.nextId + 1
      ordered := by
        refine List.pairwise_append.mpr ⟨t.ordered, List.pairwise_singleton _ _, ?_⟩
        intro a ha b hb
        rw [List.mem_singleton.mp hb, hmk]
        exact t.below a ha
      below := by
        intro r hr
        rcases List.mem_append.mp hr with hr | hr
        · exact Nat.lt_succ_of_lt (t.below r hr)
        · rw [List.mem_singleton.mp hr, hmk]
          exact Nat.lt_succ_self _
      unique := by
        refine List.pairwise_append.mpr ⟨t.unique, List.pairwise_singleton _ _, ?_⟩
        intro a ha b hb
        rw [List.mem_singleton.mp hb]
        exact byKey_eq_none_iff.mp h a ha }
  else t

variable {mk : ℕ → ρ} {hmk : ∀ n, rowId (mk n) = n}

theorem insertOrIgnore_of_taken {t : KeyedTable ρ} {r : ρ}
    (h : t.byKey (key (mk t.nextId)) = some r) : t.insertOrIgnore mk hmk = t := by
  have hne : t.byKey (key (mk t.nextId)) ≠ none := by simp [h]
  simp [insertOrIgnore, hne]

theorem insertOrIgnore_rows_of_free {t : KeyedTable ρ}
    (h : t.byKey (key (mk t.nextId)) = none) :
    (t.insertOrIgnore mk hmk).rows = t.rows ++ [mk t.nextId] := by
  simp [insertOrIgnore, h]

theorem insertOrIgnore_nextId_of_free {t : KeyedTable ρ}
    (h : t.byKey (key (mk t.nextId)) = none) :
    (t.insertOrIgnore mk hmk).nextId = t.nextId + 1 := by
  simp [insertOrIgnore, h]

theorem nextId_le_insertOrIgnore (t : KeyedTable ρ) :
    t.nextId ≤ (t.insertOrIgnore mk hmk).nextId := by
  by_cases h : t.byKey (key (mk t.nextId)) = none
  · rw [insertOrIgnore_nextId_of_free h]
    exact Nat.le_succ _
  · simp [insertOrIgnore, h]

/-- Rows that were there stay there. -/
theorem mem_insertOrIgnore_of_mem {t : KeyedTable ρ} {r : ρ} (hr : r ∈ t.rows) :
    r ∈ (t.insertOrIgnore mk hmk).rows := by
  by_cases h : t.byKey (key (mk t.nextId)) = none
  · rw [insertOrIgnore_rows_of_free h]
    exact List.mem_append_left _ hr
  · simpa [insertOrIgnore, h] using hr

/-- A row of the result is old, or it is the new row and its key was free. -/
theorem mem_insertOrIgnore {t : KeyedTable ρ} {r : ρ}
    (hr : r ∈ (t.insertOrIgnore mk hmk).rows) :
    r ∈ t.rows ∨ (r = mk t.nextId ∧ t.byKey (key (mk t.nextId)) = none) := by
  by_cases h : t.byKey (key (mk t.nextId)) = none
  · rw [insertOrIgnore_rows_of_free h] at hr
    rcases List.mem_append.mp hr with hr | hr
    · exact Or.inl hr
    · exact Or.inr ⟨List.mem_singleton.mp hr, h⟩
  · exact Or.inl (by simpa [insertOrIgnore, h] using hr)

/-- Whether the row is inserted or not, its key is there. -/
theorem exists_key_insertOrIgnore (t : KeyedTable ρ) :
    ∃ r ∈ (t.insertOrIgnore mk hmk).rows, key r = key (mk t.nextId) := by
  cases htaken : t.byKey (key (mk t.nextId)) with
  | none =>
      refine ⟨mk t.nextId, ?_, rfl⟩
      rw [insertOrIgnore_rows_of_free htaken]
      exact List.mem_append_right _ (List.mem_singleton_self _)
  | some r =>
      obtain ⟨hr, hkey⟩ := byKey_eq_some_iff.mp htaken
      exact ⟨r, mem_insertOrIgnore_of_mem hr, hkey⟩

theorem byKey_insertOrIgnore_of_free {t : KeyedTable ρ}
    (h : t.byKey (key (mk t.nextId)) = none) :
    (t.insertOrIgnore mk hmk).byKey (key (mk t.nextId)) = some (mk t.nextId) := by
  rw [byKey_eq_some_iff, insertOrIgnore_rows_of_free h]
  exact ⟨by simp, rfl⟩

theorem byKey_insertOrIgnore_of_ne {t : KeyedTable ρ} {k : κ} (hk : key (mk t.nextId) ≠ k) :
    (t.insertOrIgnore mk hmk).byKey k = t.byKey k := by
  by_cases h : t.byKey (key (mk t.nextId)) = none
  · rw [byKey, insertOrIgnore_rows_of_free h, List.find?_append, List.find?_singleton,
      decide_eq_false hk]
    exact Option.or_none
  · simp [insertOrIgnore, h]

end Insert

/-! ## Identities in use -/

/-- Some row carries the identity `n`. -/
def HasId (t : KeyedTable ρ) (n : ℕ) : Prop := ∃ r ∈ t.rows, rowId r = n

theorem hasId_of_mem {t : KeyedTable ρ} {r : ρ} (hr : r ∈ t.rows) : t.HasId (rowId r) :=
  ⟨r, hr, rfl⟩

theorem HasId.lt_nextId {t : KeyedTable ρ} {n : ℕ} (h : t.HasId n) : n < t.nextId := by
  obtain ⟨r, hr, rfl⟩ := h
  exact t.below r hr

theorem HasId.of_rows_eq_map {t u : KeyedTable ρ} {f : ρ → ρ} (hrows : u.rows = t.rows.map f)
    (hf : ∀ r, rowId (f r) = rowId r) {n : ℕ} (h : t.HasId n) : u.HasId n := by
  obtain ⟨r, hr, rfl⟩ := h
  refine ⟨f r, ?_, hf r⟩
  rw [hrows]
  exact List.mem_map_of_mem hr

theorem HasId.updateWhere {t : KeyedTable ρ} {p : ρ → Bool} {f : ρ → ρ} {n : ℕ}
    {hf : ∀ r, rowId (f r) = rowId r ∧ key (f r) = key r} (h : t.HasId n) :
    (t.updateWhere p f hf).HasId n :=
  h.of_rows_eq_map rfl (rowId_updated hf)

theorem HasId.deleteWhere {t : KeyedTable ρ} {p : ρ → Bool} {n : ℕ} (h : t.HasId n)
    (hp : ∀ r ∈ t.rows, rowId r = n → p r = false) : (t.deleteWhere p).HasId n := by
  obtain ⟨r, hr, rfl⟩ := h
  exact ⟨r, mem_deleteWhere.mpr ⟨hr, hp r hr rfl⟩, rfl⟩

theorem HasId.insertOrIgnore [DecidableEq κ] {t : KeyedTable ρ} {mk : ℕ → ρ} {n : ℕ}
    {hmk : ∀ n, rowId (mk n) = n} (h : t.HasId n) : (t.insertOrIgnore mk hmk).HasId n := by
  obtain ⟨r, hr, rfl⟩ := h
  exact ⟨r, mem_insertOrIgnore_of_mem hr, rfl⟩

/-! ## What the rows of a later table come from -/

/-- Every row of `u` continues a row of `t` under `R`, or is new and satisfies `N`. -/
structure Evolves (R : ρ → ρ → Prop) (N : ρ → Prop) (t u : KeyedTable ρ) : Prop where
  nextId_le : t.nextId ≤ u.nextId
  source : ∀ r' ∈ u.rows,
    (∃ r ∈ t.rows, rowId r' = rowId r ∧ key r' = key r ∧ R r r') ∨ (t.nextId ≤ rowId r' ∧ N r')

namespace Evolves

variable {R S T : ρ → ρ → Prop} {M N O : ρ → Prop} {t u v : KeyedTable ρ}

theorem refl (hR : ∀ r, R r r) : Evolves R N t t :=
  ⟨le_rfl, fun r hr ↦ Or.inl ⟨r, hr, rfl, rfl, hR r⟩⟩

theorem comp (htu : Evolves R M t u) (huv : Evolves S N u v)
    (hold : ∀ a b c, R a b → S b c → T a c) (hnew : ∀ a b, M a → S a b → O b)
    (hN : ∀ a, N a → O a) : Evolves T O t v := by
  refine ⟨htu.nextId_le.trans huv.nextId_le, ?_⟩
  intro c hc
  rcases huv.source c hc with ⟨b, hb, hcb, hkey, hS⟩ | ⟨hfresh, hn⟩
  · rcases htu.source b hb with ⟨a, ha, hba, hkba, hR⟩ | ⟨hfresh, hm⟩
    · exact Or.inl ⟨a, ha, hcb.trans hba, hkey.trans hkba, hold a b c hR hS⟩
    · exact Or.inr ⟨hcb ▸ hfresh, hnew b c hm hS⟩
  · exact Or.inr ⟨htu.nextId_le.trans hfresh, hN c hn⟩

theorem mono (h : Evolves R M t u) (hR : ∀ a b, R a b → S a b) (hM : ∀ a, M a → N a) :
    Evolves S N t u :=
  h.comp (S := Eq) (N := fun _ ↦ False) (refl fun _ ↦ rfl)
    (fun a b _ hab hbc ↦ hbc ▸ hR a b hab) (fun a _ ha hab ↦ hab ▸ hM a ha)
    fun _ hfalse ↦ hfalse.elim

theorem updateWhere_of {p : ρ → Bool} {f : ρ → ρ}
    {hf : ∀ r, rowId (f r) = rowId r ∧ key (f r) = key r}
    (hkeep : ∀ r ∈ t.rows, p r = false → R r r) (hset : ∀ r ∈ t.rows, p r = true → R r (f r)) :
    Evolves R N t (t.updateWhere p f hf) := by
  refine ⟨le_rfl, ?_⟩
  intro r' hr'
  obtain ⟨r, hr, rfl⟩ := mem_updateWhere.mp hr'
  refine Or.inl ⟨r, hr, rowId_updated hf r, key_updated hf r, ?_⟩
  by_cases hp : p r = true
  · simpa [hp] using hset r hr hp
  · simpa [hp] using hkeep r hr (by simpa using hp)

theorem updateWhere {p : ρ → Bool} {f : ρ → ρ}
    {hf : ∀ r, rowId (f r) = rowId r ∧ key (f r) = key r}
    (hkeep : ∀ r, R r r) (hset : ∀ r ∈ t.rows, p r = true → R r (f r)) :
    Evolves R N t (t.updateWhere p f hf) :=
  updateWhere_of (fun r _ _ ↦ hkeep r) hset

/-- Rows that are changed one by one. -/
theorem of_rows_eq_map {f : ρ → ρ} (hrows : u.rows = t.rows.map f)
    (hnext : u.nextId = t.nextId) (hf : ∀ r, rowId (f r) = rowId r ∧ key (f r) = key r)
    (hR : ∀ r, R r (f r)) : Evolves R N t u := by
  refine ⟨hnext.ge, ?_⟩
  intro r' hr'
  obtain ⟨r, hr, rfl⟩ := List.mem_map.mp (hrows ▸ hr')
  exact Or.inl ⟨r, hr, (hf r).1, (hf r).2, hR r⟩

theorem deleteWhere {p : ρ → Bool} (hkeep : ∀ r, p r = false → R r r) :
    Evolves R N t (t.deleteWhere p) := by
  refine ⟨le_rfl, ?_⟩
  intro r hr
  obtain ⟨hmem, hp⟩ := mem_deleteWhere.mp hr
  exact Or.inl ⟨r, hmem, rfl, rfl, hkeep r hp⟩

theorem insertOrIgnore [DecidableEq κ] {mk : ℕ → ρ} {hmk : ∀ n, rowId (mk n) = n}
    (hkeep : ∀ r, R r r) (hnew : N (mk t.nextId)) :
    Evolves R N t (t.insertOrIgnore mk hmk) := by
  refine ⟨nextId_le_insertOrIgnore t, ?_⟩
  intro r hr
  rcases mem_insertOrIgnore hr with hold | ⟨rfl, -⟩
  · exact Or.inl ⟨r, hold, rfl, rfl, hkeep r⟩
  · exact Or.inr ⟨(hmk _).ge, hnew⟩

/-- A property of all rows survives when every source of a row gives it. -/
theorem forall_rows {P : ρ → Prop} (h : Evolves R N t u) (hP : ∀ r ∈ t.rows, P r)
    (hR : ∀ r ∈ t.rows, ∀ r', rowId r' = rowId r → key r' = key r → R r r' → P r → P r')
    (hN : ∀ r, t.nextId ≤ rowId r → N r → P r) : ∀ r ∈ u.rows, P r := by
  intro r' hr'
  rcases h.source r' hr' with ⟨r, hr, hid, hkey, hstep⟩ | ⟨hfresh, hn⟩
  · exact hR r hr r' hid hkey hstep (hP r hr)
  · exact hN r' hfresh hn

/-- A row under an old identity continues the row that carried it. -/
theorem of_rowId_lt (h : Evolves R N t u) {r' : ρ} (hr' : r' ∈ u.rows)
    (hlt : rowId r' < t.nextId) :
    ∃ r ∈ t.rows, rowId r' = rowId r ∧ key r' = key r ∧ R r r' := by
  rcases h.source r' hr' with hold | ⟨hfresh, -⟩
  · exact hold
  · omega

/-- Two rows under one identity are related. -/
theorem of_rowId_eq (h : Evolves R N t u) {r r' : ρ} (hr : r ∈ t.rows) (hr' : r' ∈ u.rows)
    (hid : rowId r' = rowId r) : R r r' := by
  obtain ⟨s, hs, hsid, -, hR⟩ := h.of_rowId_lt hr' (hid.trans_lt (t.below r hr))
  obtain rfl := t.eq_of_rowId_eq hs hr (hsid.symm.trans hid)
  exact hR

/-- A row whose identity is still in use is continued. -/
theorem of_hasId (h : Evolves R N t u) {r : ρ} (hr : r ∈ t.rows) (hu : u.HasId (rowId r)) :
    ∃ r' ∈ u.rows, rowId r' = rowId r ∧ key r' = key r ∧ R r r' := by
  obtain ⟨r', hr', hid⟩ := hu
  obtain ⟨s, hs, hids, hkey, hR⟩ := h.of_rowId_lt hr' (hid ▸ t.below r hr)
  obtain rfl := t.eq_of_rowId_eq hs hr (hids.symm.trans hid)
  exact ⟨r', hr', hid, hkey, hR⟩

/-- An identity that is not in use stays unused, below the next one. -/
theorem hasId (h : Evolves R N t u) {n : ℕ} (hn : n < t.nextId) (hu : u.HasId n) : t.HasId n := by
  obtain ⟨r', hr', rfl⟩ := hu
  obtain ⟨r, hr, hid, -⟩ := h.of_rowId_lt hr' hn
  exact ⟨r, hr, hid.symm⟩

end Evolves

/-! ## Rows that stay as they are -/

/-- The rows that `out` selects are the same, in the same order. -/
def Untouched (out : ρ → Bool) (t u : KeyedTable ρ) : Prop :=
  u.rows.filter out = t.rows.filter out

namespace Untouched

variable {out : ρ → Bool} {t u v : KeyedTable ρ}

theorem refl : Untouched out t t := Eq.refl _

theorem trans (htu : Untouched out t u) (huv : Untouched out u v) : Untouched out t v :=
  Eq.trans huv htu

/-- What leaves the rows of `out` alone leaves those of any part of it alone. -/
theorem mono {part : ρ → Bool} (h : Untouched out t u) (hpart : ∀ r, part r = true → out r = true) :
    Untouched part t u := by
  have hfilter (rows : List ρ) : rows.filter part = (rows.filter out).filter part := by
    rw [List.filter_filter]
    refine List.filter_congr fun r _ ↦ ?_
    cases hr : part r with
    | false => rfl
    | true => simp [hpart r hr]
  unfold Untouched
  rw [hfilter u.rows, h, ← hfilter]

theorem of_rows_eq_map {f : ρ → ρ} (hrows : u.rows = t.rows.map f)
    (hf : ∀ r ∈ t.rows, out (f r) = out r) (hsame : ∀ r ∈ t.rows, out r = true → f r = r) :
    Untouched out t u := by
  have hselect : t.rows.filter (out ∘ f) = t.rows.filter out := List.filter_congr hf
  unfold Untouched
  rw [hrows, List.filter_map, hselect]
  refine (List.map_congr_left fun r hr ↦ ?_).trans (List.map_id _)
  obtain ⟨hmem, hr⟩ := List.mem_filter.mp hr
  exact hsame r hmem hr

theorem updateWhere {p : ρ → Bool} {f : ρ → ρ}
    {hf : ∀ r, rowId (f r) = rowId r ∧ key (f r) = key r}
    (hp : ∀ r ∈ t.rows, p r = true → out r = false) (hout : ∀ r, out (f r) = out r) :
    Untouched out t (t.updateWhere p f hf) := by
  refine of_rows_eq_map rfl (fun r _ ↦ ?_) fun r hr hselected ↦ ?_
  · split_ifs
    · exact hout r
    · rfl
  · refine if_neg fun hpr ↦ ?_
    rw [hp r hr hpr] at hselected
    cases hselected

theorem deleteWhere {p : ρ → Bool} (hp : ∀ r ∈ t.rows, p r = true → out r = false) :
    Untouched out t (t.deleteWhere p) := by
  unfold Untouched KeyedTable.deleteWhere
  rw [List.filter_filter]
  refine List.filter_congr fun r hr ↦ ?_
  cases hpr : p r with
  | false => simp
  | true => simp [hp r hr hpr]

theorem insertOrIgnore [DecidableEq κ] {mk : ℕ → ρ} {hmk : ∀ n, rowId (mk n) = n}
    (hnew : out (mk t.nextId) = false) : Untouched out t (t.insertOrIgnore mk hmk) := by
  unfold Untouched
  by_cases h : t.byKey (key (mk t.nextId)) = none
  · rw [insertOrIgnore_rows_of_free h, List.filter_append, List.filter_singleton]
    simp [hnew]
  · simp [KeyedTable.insertOrIgnore, h]

end Untouched

end KeyedTable
