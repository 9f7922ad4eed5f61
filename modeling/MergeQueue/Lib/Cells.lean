import MergeQueue.Lib.Solo

/-!
# A loop over cells

A world is seen as cells.  Each round of a loop changes the cell of its own element,
and the elements have different cells.  Then the whole loop changes each cell as the
round of its element does, and no other cell.
-/

namespace Interleave

variable {W κ V ι : Type}

/-- From `w` to `w'` the cells of the elements changed as `R` says, and no others. -/
structure Updates (view : W → κ → V) (key : ι → κ) (R : ι → V → V → Prop) (xs : List ι)
    (w w' : W) : Prop where
  listed : ∀ x ∈ xs, R x (view w (key x)) (view w' (key x))
  others : ∀ k, (∀ x ∈ xs, key x ≠ k) → view w' k = view w k

namespace Updates

variable {view : W → κ → V} {key : ι → κ} {R : ι → V → V → Prop} {x : ι} {xs : List ι}
  {w w' w'' : W}

theorem nil : Updates view key R [] w w where
  listed := by simp
  others := fun _ _ ↦ rfl

theorem of_one (hx : R x (view w (key x)) (view w' (key x)))
    (hothers : ∀ k, k ≠ key x → view w' k = view w k) : Updates view key R [x] w w' where
  listed := by simpa using hx
  others := fun k hk ↦ hothers k (hk x List.mem_cons_self).symm

theorem cons (hx : Updates view key R [x] w w') (hxs : Updates view key R xs w' w'')
    (hnodup : ((x :: xs).map key).Nodup) : Updates view key R (x :: xs) w w'' := by
  rw [List.map_cons, List.nodup_cons, List.mem_map, not_exists] at hnodup
  have hother : ∀ y ∈ xs, key y ≠ key x := fun y hy hkey ↦ hnodup.1 y ⟨hy, hkey⟩
  refine ⟨fun y hy ↦ ?_, fun k hk ↦ ?_⟩
  · rcases List.mem_cons.mp hy with rfl | hy
    · rw [hxs.others _ hother]
      exact hx.listed y List.mem_cons_self
    · have hsame : view w' (key y) = view w (key y) :=
        hx.others _ (by simpa using (hother y hy).symm)
      rw [← hsame]
      exact hxs.listed y hy
  · rw [List.forall_mem_cons] at hk
    rw [hxs.others k hk.2, hx.others k (by simpa using hk.1)]

theorem mono {S : ι → V → V → Prop} (h : Updates view key R xs w w')
    (hR : ∀ x ∈ xs, ∀ v v', R x v v' → S x v v') : Updates view key S xs w w' :=
  ⟨fun x hx ↦ hR x hx _ _ (h.listed x hx), h.others⟩

end Updates

namespace Program

variable {Op : Type} {A : Op → Type} {σ ε : Type} {C : Type} {S : Stage Op A ε W C}

/-- Each round tells by the cell of its element whether it counts. -/
theorem Finishes.tally {view : W → κ → V} {key : ι → κ} {R : ι → V → V → Prop}
    {Q : ι → V → Prop} {H : ι → V → Bool} {I : σ → W → Prop}
    {body : ι → Program Op A σ ε Bool} {xs : List ι} {s : σ} {log : List Op} {w : W}
    (hbody : ∀ x ∈ xs, ∀ s log w, I s w → Q x (view w (key x)) →
      (body x).Finishes S s log w fun result s' _ w' ↦
        result = .ok (H x (view w (key x))) ∧ I s' w' ∧ Updates view key R [x] w w')
    (hnodup : (xs.map key).Nodup) (hready : ∀ x ∈ xs, Q x (view w (key x))) (hI : I s w) :
    (tally body xs).Finishes S s log w fun result s' _ w' ↦
      result = .ok (xs.countP fun x ↦ H x (view w (key x))) ∧ I s' w' ∧
        Updates view key R xs w w' := by
  induction xs generalizing s log w with
  | nil => exact Finishes.ret ⟨rfl, hI, Updates.nil⟩
  | cons x xs ih =>
      rw [List.forall_mem_cons] at hbody hready
      have hnodup' := hnodup
      rw [List.map_cons, List.nodup_cons, List.mem_map, not_exists] at hnodup'
      refine Finishes.bind ((hbody.1 s log w hI hready.1).mono ?_)
      rintro _ s' log' w' ⟨rfl, hI', hx⟩
      have hsame : ∀ y ∈ xs, view w' (key y) = view w (key y) := fun y hy ↦
        hx.others _ (by simpa using fun hkey ↦ hnodup'.1 y ⟨hy, hkey.symm⟩)
      refine Finishes.bind ((ih hbody.2 hnodup'.2 (fun y hy ↦ ?_) hI').mono ?_)
      · rw [hsame y hy]
        exact hready.2 y hy
      · rintro _ s'' log'' w'' ⟨rfl, hI'', hxs⟩
        refine Finishes.ret ⟨?_, hI'', hx.cons hxs hnodup⟩
        have hcount : xs.countP (fun y ↦ H y (view w' (key y))) =
            xs.countP (fun y ↦ H y (view w (key y))) := by
          apply List.countP_congr
          intro y hy
          rw [hsame y hy]
        rw [hcount, List.countP_cons]
        split_ifs <;> rfl

end Program

end Interleave
