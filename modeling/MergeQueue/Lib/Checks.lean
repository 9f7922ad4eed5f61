import Mathlib.Data.List.Forall2

/-!
# Computations that check and raise

When a computation in `Except` that is made of checks, of the same step for
every element of a list and of a loop that carries a state returns, and what it
returns then.
-/

variable {ε α β σ : Type}

theorem bind_eq_ok {x : Except ε α} {f : α → Except ε β} {b : β} :
    x >>= f = .ok b ↔ ∃ a, x = .ok a ∧ f a = .ok b := by
  cases x with
  | error e => simp [bind, Except.bind]
  | ok a => simp [bind, Except.bind]

theorem bind_eq_error {x : Except ε α} {f : α → Except ε β} {e : ε} :
    x >>= f = .error e ↔ x = .error e ∨ ∃ a, x = .ok a ∧ f a = .error e := by
  cases x with
  | error e' => simp [bind, Except.bind]
  | ok a => simp [bind, Except.bind]

/-- A check that raises. -/
def ensure (p : Prop) [Decidable p] (error : ε) : Except ε Unit :=
  if p then .ok () else .error error

theorem ensure_eq_ok {p : Prop} [Decidable p] {error : ε} {u : Unit} :
    ensure p error = .ok u ↔ p := by
  by_cases hp : p <;> simp [ensure, hp]

theorem ensure_bind_eq_ok {p : Prop} [Decidable p] {error : ε} {f : Unit → Except ε β} {b : β} :
    (ensure p error >>= f) = .ok b ↔ p ∧ f () = .ok b := by
  rw [bind_eq_ok]
  exact ⟨fun ⟨_, hp, hf⟩ ↦ ⟨ensure_eq_ok.mp hp, hf⟩, fun ⟨hp, hf⟩ ↦ ⟨(), ensure_eq_ok.mpr hp, hf⟩⟩

theorem mapM_eq_ok_iff {f : α → Except ε β} {xs : List α} {ys : List β} :
    xs.mapM f = .ok ys ↔ List.Forall₂ (fun x y ↦ f x = .ok y) xs ys := by
  induction xs generalizing ys with
  | nil =>
      simp only [List.mapM_nil, List.forall₂_nil_left_iff]
      exact ⟨fun h ↦ (Except.ok.inj h).symm, fun h ↦ by rw [h]; rfl⟩
  | cons x xs ih =>
      rw [List.mapM_cons, bind_eq_ok]
      constructor
      · rintro ⟨y, hy, h⟩
        obtain ⟨zs, hzs, h⟩ := bind_eq_ok.mp h
        rw [← Except.ok.inj h]
        exact .cons hy (ih.mp hzs)
      · rintro (_ | ⟨hy, hys⟩)
        exact ⟨_, hy, bind_eq_ok.mpr ⟨_, ih.mpr hys, rfl⟩⟩

/-- A step that returns a function of its element does so for the whole list. -/
theorem mapM_eq_ok_map {f : α → Except ε β} {g : α → β} {xs : List α}
    (h : ∀ x ∈ xs, f x = .ok (g x)) : xs.mapM f = .ok (xs.map g) := by
  rw [mapM_eq_ok_iff, List.forall₂_map_right_iff, List.forall₂_same]
  exact h

/-- The invariant rule of a loop that carries a state: `I` tells what the loop still has to do. -/
theorem foldlM_eq_ok {f : σ → α → Except ε σ} {I : List α → σ → Prop} {xs : List α} {s : σ}
    (hstep : ∀ x xs s, I (x :: xs) s → ∃ s', f s x = .ok s' ∧ I xs s') (hs : I xs s) :
    ∃ s', xs.foldlM f s = .ok s' ∧ I [] s' := by
  induction xs generalizing s with
  | nil => exact ⟨s, rfl, hs⟩
  | cons x xs ih =>
      obtain ⟨t, hft, ht⟩ := hstep x xs s hs
      obtain ⟨u, hfu, hu⟩ := ih ht
      exact ⟨u, by rw [List.foldlM_cons, hft]; exact hfu, hu⟩
