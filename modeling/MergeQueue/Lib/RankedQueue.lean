import Mathlib.Data.List.Sort
import Mathlib.Data.List.Count

/-!
# Queues in a strict order

A list that a strict order sorts is determined by its elements, and the place of
an element in it is the number of elements before that element.
-/

namespace RankedQueue

variable {α β : Type*} {R : α → α → Prop}

/-- No element of the list is before itself or before one that is before it. -/
def Strict (R : α → α → Prop) (l : List α) : Prop := ∀ a ∈ l, ∀ b ∈ l, R a b → ¬ R b a

theorem Strict.irrefl {l : List α} (h : Strict R l) {a : α} (ha : a ∈ l) : ¬ R a a :=
  fun haa ↦ h a ha a ha haa haa

/-- As many elements are before the one at `k` as its place says. -/
theorem countP_of_getElem? [DecidableRel R] {l : List α} (hl : l.Pairwise R)
    (hstrict : Strict R l) {k : ℕ} {r : α} (h : l[k]? = some r) : l.countP (fun s ↦ R s r) = k := by
  induction l generalizing k with
  | nil => simp at h
  | cons a l ih =>
      obtain ⟨hfirst, hrest⟩ := List.pairwise_cons.mp hl
      have hstrict' : Strict R l :=
        fun b hb c hc ↦ hstrict b (List.mem_cons_of_mem a hb) c (List.mem_cons_of_mem a hc)
      cases k with
      | zero =>
          obtain rfl : a = r := by simpa using h
          rw [List.countP_eq_zero]
          intro s hs hsa
          have hsa : R s a := of_decide_eq_true hsa
          rcases List.mem_cons.mp hs with rfl | hs
          · exact hstrict.irrefl List.mem_cons_self hsa
          · exact hstrict a List.mem_cons_self s (List.mem_cons_of_mem a hs) (hfirst s hs) hsa
      | succ k =>
          have hr : l[k]? = some r := by simpa using h
          have har : R a r := hfirst r (List.mem_of_getElem? hr)
          rw [List.countP_cons_of_pos (by simpa using har), ih hrest hstrict' hr]

/-- The place at which an element is found by a value that no other element has. -/
theorem findIdx?_of_getElem? [DecidableEq β] {l : List α} {f : α → β}
    (hf : ∀ a ∈ l, ∀ b ∈ l, f a = f b → a = b) (hnodup : l.Nodup) {k : ℕ} {r : α}
    (h : l[k]? = some r) : l.findIdx? (fun s ↦ f s = f r) = some k := by
  obtain ⟨hk, hget⟩ := List.getElem?_eq_some_iff.mp h
  rw [List.findIdx?_eq_some_iff_getElem]
  refine ⟨hk, by simp [hget], ?_⟩
  intro j hjk hj
  have hsame : l[j] = r :=
    hf _ (List.getElem_mem _) r (List.mem_of_getElem? h) (of_decide_eq_true hj)
  have hindex : j = k := (hnodup.getElem_inj_iff).mp (hsame.trans hget.symm)
  omega

section Sorting

variable {le : α → α → Prop} [DecidableRel le] [Std.Total le] [IsTrans α le]

/-- Sorting and then selecting is selecting and then sorting. -/
theorem filter_insertionSort (p : α → Bool) {l : List α}
    (hanti : ∀ a ∈ l, ∀ b ∈ l, le a b → le b a → a = b) :
    (l.insertionSort le).filter p = (l.filter p).insertionSort le := by
  apply @List.Perm.eq_of_pairwise α le
  · intro a b ha hb
    apply hanti a _ b _
    · exact (List.mem_insertionSort le).mp (List.mem_of_mem_filter ha)
    · exact List.mem_of_mem_filter ((List.mem_insertionSort le).mp hb)
  · exact (List.pairwise_insertionSort le l).filter p
  · exact List.pairwise_insertionSort le (l.filter p)
  · exact ((List.perm_insertionSort le l).filter p).trans
      (List.perm_insertionSort le (l.filter p)).symm

/-- The first selected element in order. -/
theorem find?_insertionSort (p : α → Bool) {l : List α}
    (hanti : ∀ a ∈ l, ∀ b ∈ l, le a b → le b a → a = b) :
    (l.insertionSort le).find? p = ((l.filter p).insertionSort le).head? := by
  rw [← filter_insertionSort p hanti, List.head?_filter]

end Sorting

end RankedQueue
