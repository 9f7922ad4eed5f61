import MergeQueue.Lib.Oracle
import Mathlib.Tactic.Linarith
import Mathlib.Tactic.Ring

/-!
# The rounds of a loop

A loop that is told anything passes from round to round.  What every round does to the
state of the loop and to the record of the exchanges holds along all of them.  A loop
that gives up at a deadline passes only as often as the deadline is moved.
-/

namespace Interleave

variable {Op : Type} {A : Op → Type} {σ ε α β γ μ τ : Type}

/-! ## Loops whose result is passed on -/

theorem Task.andThen_assoc (t : Task Op A σ ε α) (f : Except ε α → σ → Task Op A σ ε β)
    (g : Except ε β → σ → Task Op A σ ε γ) :
    (t.andThen f).andThen g = t.andThen fun result s ↦ (f result s).andThen g := by
  induction t with
  | done result s => rfl
  | ask s op next ih => exact congrArg (Task.ask s op) (funext ih)
  | cut => rfl

namespace Program

theorem bind_assoc (p : Program Op A σ ε α) (f : α → Program Op A σ ε β)
    (g : β → Program Op A σ ε γ) : (p >>= f >>= g) = p >>= fun a ↦ f a >>= g := by
  funext s
  refine ((p s).andThen_assoc _ _).trans (congrArg (fun k ↦ (p s).andThen k) ?_)
  funext result s
  cases result <;> rfl

theorem loop_succ (body : τ → Program Op A σ ε (τ ⊕ α)) (rounds : ℕ) (t : τ) :
    loop body (rounds + 1) t = body t >>= fun next ↦ next.elim (loop body rounds) pure := by
  refine congrArg (body t >>= ·) (funext fun next ↦ ?_)
  cases next <;> rfl

/-- A loop whose result is passed on is the loop of the rounds that pass it on. -/
theorem loop_bind_pure (body : τ → Program Op A σ ε (τ ⊕ α)) (f : α → β) (rounds : ℕ) (t : τ) :
    (loop body rounds t >>= fun a ↦ Pure.pure (f a)) =
      loop (fun t ↦ body t >>= fun next ↦ Pure.pure (next.map id f)) rounds t := by
  induction rounds generalizing t with
  | zero => rfl
  | succ rounds ih =>
      rw [loop_succ, loop_succ, bind_assoc, bind_assoc]
      refine congrArg (body t >>= ·) (funext fun next ↦ ?_)
      cases next with
      | inl t => exact ih t
      | inr a => rfl

end Program

/-! ## The rounds -/

/-- A round of a loop that was followed by another round. -/
structure Round (Op : Type) (A : Op → Type) (ε τ : Type) where
  before : τ
  log : List (Exchange Op A ε)
  after : τ

namespace Program

/-- The rounds that a loop goes on after. -/
def passes (body : τ → Program Op A σ ε (τ ⊕ α)) :
    ℕ → List (Reply Op A ε) → τ → σ → List (Round Op A ε τ)
  | 0, _, _, _ => []
  | rounds + 1, replies, t, s =>
      match (body t s).converse replies with
      | (log, .done (.ok (.inl t')) s') =>
          ⟨t, log, t'⟩ :: passes body rounds (replies.drop log.length) t' s'
      | _ => []

theorem passes_succ {body : τ → Program Op A σ ε (τ ⊕ α)} {rounds : ℕ}
    {replies : List (Reply Op A ε)} {t t' : τ} {s s' : σ} {log : List (Exchange Op A ε)}
    (h : (body t s).converse replies = (log, .done (.ok (.inl t')) s')) :
    passes body (rounds + 1) replies t s =
      ⟨t, log, t'⟩ :: passes body rounds (replies.drop log.length) t' s' := by
  rw [passes, h]

/-- A round that does not return, or is the last one, is not followed by another. -/
theorem passes_of_last {body : τ → Program Op A σ ε (τ ⊕ α)} {rounds : ℕ}
    {replies : List (Reply Op A ε)} {t : τ} {s : σ}
    (h : ∀ log t' s', (body t s).converse replies ≠ (log, .done (.ok (.inl t')) s')) :
    passes body (rounds + 1) replies t s = [] := by
  unfold passes
  split
  · next hdone => exact absurd hdone (h _ _ _)
  · rfl

/-- What was asked in the rounds, one after the other, was asked by the loop. -/
theorem passes_log (body : τ → Program Op A σ ε (τ ⊕ α)) (rounds : ℕ)
    (replies : List (Reply Op A ε)) (t : τ) (s : σ) :
    (passes body rounds replies t s).flatMap Round.log <+:
      ((loop body rounds t s).converse replies).1 := by
  induction rounds generalizing replies t s with
  | zero => exact List.nil_prefix
  | succ rounds ih =>
      by_cases hpass : ∃ log t' s',
          (body t s).converse replies = (log, .done (.ok (.inl t')) s')
      · obtain ⟨log, t', s', hpass⟩ := hpass
        rw [passes_succ hpass, List.flatMap_cons, loop, bind, Task.converse_andThen hpass]
        exact (List.prefix_append_right_inj log).mpr (ih _ t' s')
      · push Not at hpass
        rw [passes_of_last hpass]
        exact List.nil_prefix

end Program

/-! ## What every round does -/

/-- One round after the other does what `step` says of it and of the record. -/
def Observer.Steps (O : Observer Op A ε μ) (step : τ → μ → τ → μ → Prop) :
    τ → μ → List (Round Op A ε τ) → Prop
  | _, _, [] => True
  | t, m, r :: rs =>
      r.before = t ∧ step t m r.after (O.after m r.log) ∧
        O.Steps step r.after (O.after m r.log) rs

theorem Program.Told.steps [Inhabited σ] {O : Observer Op A ε μ}
    {body : τ → Program Op A σ ε (τ ⊕ α)} {step : τ → μ → τ → μ → Prop}
    {except : ε → σ → μ → Prop}
    (hbody : ∀ t m, (body t).Told O (fun _ m' ↦ m' = m)
      (fun next _ m' ↦ match next with
        | .inl t' => step t m t' m'
        | .inr _ => True) except)
    {m : μ} (hm : O.keeps m) (rounds : ℕ) (replies : List (Reply Op A ε)) (t : τ) (s : σ)
    (hallows : O.Allows m ((Program.passes body rounds replies t s).flatMap Round.log)) :
    O.Steps step t m (Program.passes body rounds replies t s) := by
  induction rounds generalizing replies t s m with
  | zero => trivial
  | succ rounds ih =>
      by_cases hpass : ∃ log t' s',
          (body t s).converse replies = (log, .done (.ok (.inl t')) s')
      · obtain ⟨log, t', s', hpass⟩ := hpass
        rw [passes_succ hpass] at hallows ⊢
        rw [List.flatMap_cons, Observer.allows_append] at hallows
        have hround := Task.Safe.converse hm (hbody t m s m rfl) replies
        rw [hpass] at hround
        obtain ⟨hkeeps, hstep⟩ := hround hallows.1
        exact ⟨rfl, hstep, ih hkeeps _ t' s' hallows.2⟩
      · push Not at hpass
        rw [passes_of_last hpass]
        trivial

/-! ## Deadlines -/

/-- A round of a loop with a deadline at a time `t` that is not before the clock.  After the
deadline it passes only with the reprieve, which is given once, and it takes a while. -/
structure Meets (timeout interval : ℤ) (start : τ → ℤ) (used : τ → Bool) (clock : μ → ℤ)
    (t : τ) (m : μ) (t' : τ) (m' : μ) : Prop where
  reprieved : used t = true → used t' = true
  started : start t ≤ clock m → start t' ≤ clock m'
  time : ∃ now, clock m ≤ now ∧ now + interval ≤ clock m' ∧
    (timeout < now - start t → used t = false ∧ used t' = true)

/-- Between two moves of the deadline a loop passes only as often as its interval fits into
the timeout, and once more with the reprieve. -/
theorem Observer.Steps.length_le {O : Observer Op A ε μ} {step : τ → μ → τ → μ → Prop}
    {timeout interval : ℤ} {start : τ → ℤ} {used : τ → Bool} {clock : μ → ℤ} {limit : ℕ}
    (hinterval : 0 < interval) (hlimit : ∀ n : ℕ, n * interval ≤ timeout → n < limit)
    (hstep : ∀ t m t' m', step t m t' m' → Meets timeout interval start used clock t m t' m')
    {rounds : List (Round Op A ε τ)} {t : τ} {m : μ} {n : ℕ} (hsteps : O.Steps step t m rounds)
    (hn : n ≤ limit) (hclock : start t + n * interval ≤ clock m) :
    rounds.length + n ≤
      ((rounds.countP fun r ↦ start r.after ≠ start r.before) + 1) * limit +
        (if used t then 0 else 1) := by
  induction rounds generalizing t m n with
  | nil => simp; omega
  | cons r rounds ih =>
      obtain ⟨rfl, hround, hrest⟩ := hsteps
      obtain ⟨hreprieved, hstarted, now, hnow, hlater, hexpired⟩ := hstep _ _ _ _ hround
      have hstart : start r.before ≤ clock m := by
        have : 0 ≤ (n : ℤ) * interval := by positivity
        omega
      -- A round in time uses up one interval, a round after the deadline the reprieve.
      have hcount : ∃ k ≤ limit, start r.before + k * interval ≤ clock (O.after m r.log) ∧
          n + 1 + (if used r.after then 0 else 1) ≤ k + (if used r.before then 0 else 1) := by
        by_cases hlate : timeout < now - start r.before
        · obtain ⟨hfresh, hspent⟩ := hexpired hlate
          exact ⟨n, hn, by omega, by simp [hfresh, hspent]⟩
        · have hfits : n < limit := hlimit n (by omega)
          refine ⟨n + 1, hfits, ?_, ?_⟩
          · push_cast
            linarith
          · cases hbefore : used r.before with
            | false =>
                have hleft : (if used r.after = true then 0 else 1) ≤ 1 := by split_ifs <;> omega
                simpa using hleft
            | true => rw [hreprieved hbefore]
      obtain ⟨k, hk, htime, hspent⟩ := hcount
      rw [List.length_cons, List.countP_cons]
      by_cases hmoved : start r.after ≠ start r.before
      · have hclock : start r.after + (0 : ℕ) * interval ≤ clock (O.after m r.log) := by
          simpa using hstarted hstart
        have hrest := ih hrest (Nat.zero_le _) hclock
        rw [if_pos (decide_eq_true hmoved)]
        have hsplit : ∀ c : ℕ, (c + 1 + 1) * limit = (c + 1) * limit + limit := fun c ↦ by ring
        rw [hsplit]
        omega
      · have hsame : start r.after = start r.before := not_not.mp hmoved
        have hrest := ih hrest hk (by rw [hsame]; exact htime)
        rw [if_neg (by simpa using hsame)]
        simp only [Nat.add_zero]
        omega

end Interleave
