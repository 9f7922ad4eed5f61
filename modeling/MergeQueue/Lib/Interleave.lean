import Mathlib.Tactic.Common
import Mathlib.Data.List.Basic

/-!
# Interleaved tasks

A task keeps a state of its own and awaits the answers of operations on a world
that it shares with other tasks.  Two ways to reason about tasks are developed:
what a task asks for whatever the answers are, and what it does to the world as
long as the other tasks keep to a rely condition.
-/

namespace Interleave

variable {Op : Type} {A : Op → Type} {σ ε α β γ τ : Type}

/-- A task has returned, awaits an answer, or is followed no further. -/
inductive Task (Op : Type) (A : Op → Type) (σ ε α : Type)
  | done (result : Except ε α) (s : σ)
  | ask (s : σ) (op : Op) (next : Except ε (A op) → Task Op A σ ε α)
  | cut

namespace Task

/-- Goes on with `f` when the task returns. -/
def andThen (f : Except ε α → σ → Task Op A σ ε β) : Task Op A σ ε α → Task Op A σ ε β
  | done result s => f result s
  | ask s op next => ask s op fun a ↦ (next a).andThen f
  | cut => cut

end Task

def Program (Op : Type) (A : Op → Type) (σ ε α : Type) := σ → Task Op A σ ε α

namespace Program

def pure (a : α) : Program Op A σ ε α := fun s ↦ .done (.ok a) s

def raise (e : ε) : Program Op A σ ε α := fun s ↦ .done (.error e) s

def bind (p : Program Op A σ ε α) (f : α → Program Op A σ ε β) : Program Op A σ ε β := fun s ↦
  (p s).andThen fun
    | .ok a, s => f a s
    | .error e, s => .done (.error e) s

def handle (p : Program Op A σ ε α) (h : ε → Program Op A σ ε α) : Program Op A σ ε α := fun s ↦
  (p s).andThen fun
    | .ok a, s => .done (.ok a) s
    | .error e, s => h e s

/-- Runs `q` after `p`, whether `p` raised or not. -/
def ensuring (p : Program Op A σ ε α) (q : Program Op A σ ε Unit) : Program Op A σ ε α := fun s ↦
  (p s).andThen fun result s ↦ (q s).andThen fun
    | .ok (), s => .done result s
    | .error e, s => .done (.error e) s

def ofExcept : Except ε α → Program Op A σ ε α
  | .ok a => pure a
  | .error e => raise e

def call (op : Op) : Program Op A σ ε (A op) := fun s ↦ .ask s op fun a ↦ .done a s

def read : Program Op A σ ε σ := fun s ↦ .done (.ok s) s

def update (f : σ → σ) : Program Op A σ ε Unit := fun s ↦ .done (.ok ()) (f s)

instance : Monad (Program Op A σ ε) where
  pure := pure
  bind := bind

instance : MonadExcept ε (Program Op A σ ε) where
  throw := raise
  tryCatch := handle

/-- Repeats `body` until it gives a result, for as many rounds as are followed. -/
def loop (body : τ → Program Op A σ ε (τ ⊕ α)) : ℕ → τ → Program Op A σ ε α
  | 0, _ => fun _ ↦ .cut
  | rounds + 1, t =>
      bind (body t) fun
        | .inl t => loop body rounds t
        | .inr a => pure a

def forEach (body : β → Program Op A σ ε Unit) : List β → Program Op A σ ε Unit
  | [] => pure ()
  | b :: bs => bind (body b) fun () ↦ forEach body bs

/-- Counts the elements for which `body` gives `true`. -/
def tally (body : β → Program Op A σ ε Bool) : List β → Program Op A σ ε ℕ
  | [] => pure 0
  | b :: bs => bind (body b) fun hit ↦ bind (tally body bs) fun n ↦
      pure (if hit then n + 1 else n)

end Program

/-! ## What a task asks for -/

namespace Task

/-- Whatever answers `contract` admits, the task asks only for what `permits`
allows, and returns as `post` or raises as `except` says. -/
def Asks (contract : (op : Op) → Except ε (A op) → Prop) (permits : σ → Op → Prop)
    (post : α → σ → Prop) (except : ε → σ → Prop) : Task Op A σ ε α → Prop
  | done (.ok a) s => post a s
  | done (.error e) s => except e s
  | ask s op next => permits s op ∧ ∀ a, contract op a → (next a).Asks contract permits post except
  | cut => True

section Asks

variable {contract : (op : Op) → Except ε (A op) → Prop} {permits permits' : σ → Op → Prop}
  {post post' : α → σ → Prop} {except except' : ε → σ → Prop}

theorem Asks.mono {t : Task Op A σ ε α} (h : t.Asks contract permits post except)
    (hpermits : ∀ s op, permits s op → permits' s op) (hpost : ∀ a s, post a s → post' a s)
    (hexcept : ∀ e s, except e s → except' e s) : t.Asks contract permits' post' except' := by
  induction t with
  | done result s =>
      cases result with
      | ok a => exact hpost a s h
      | error e => exact hexcept e s h
  | ask s op next ih => exact ⟨hpermits s op h.1, fun a ha ↦ ih a (h.2 a ha)⟩
  | cut => trivial

theorem Asks.of_contract {contract' : (op : Op) → Except ε (A op) → Prop}
    {t : Task Op A σ ε α} (h : t.Asks contract permits post except)
    (hcontract : ∀ op a, contract' op a → contract op a) :
    t.Asks contract' permits post except := by
  induction t with
  | done result s => cases result <;> exact h
  | ask s op next ih => exact ⟨h.1, fun a ha ↦ ih a (h.2 a (hcontract op a ha))⟩
  | cut => trivial

theorem asks_andThen {t : Task Op A σ ε α} {f : Except ε α → σ → Task Op A σ ε β}
    {post : β → σ → Prop} :
    (t.andThen f).Asks contract permits post except ↔
      t.Asks contract permits (fun a s ↦ (f (.ok a) s).Asks contract permits post except)
        fun e s ↦ (f (.error e) s).Asks contract permits post except := by
  induction t with
  | done result s => cases result <;> rfl
  | ask s op next ih =>
      simp only [andThen, Asks]
      exact and_congr_right fun _ ↦ forall_congr' fun a ↦ imp_congr_right fun _ ↦ ih a
  | cut => rfl

end Asks

end Task

namespace Program

variable {contract : (op : Op) → Except ε (A op) → Prop} {permits : σ → Op → Prop}
  {except : ε → σ → Prop}

/-- Started in a state with `pre`, the program asks for what `permits` allows, and
returns as `post` or raises as `except` says. -/
def Asks (contract : (op : Op) → Except ε (A op) → Prop) (permits : σ → Op → Prop)
    (pre : σ → Prop) (p : Program Op A σ ε α) (post : α → σ → Prop) (except : ε → σ → Prop) :
    Prop :=
  ∀ s, pre s → (p s).Asks contract permits post except

namespace Asks

variable {pre pre' : σ → Prop} {p : Program Op A σ ε α} {post post' : α → σ → Prop}

theorem mono {permits' : σ → Op → Prop} {except' : ε → σ → Prop}
    (h : p.Asks contract permits pre post except)
    (hpermits : ∀ s op, permits s op → permits' s op) (hpre : ∀ s, pre' s → pre s)
    (hpost : ∀ a s, post a s → post' a s) (hexcept : ∀ e s, except e s → except' e s) :
    p.Asks contract permits' pre' post' except' :=
  fun s hs ↦ (h s (hpre s hs)).mono hpermits hpost hexcept

theorem weaken (h : p.Asks contract permits pre post except) (hpre : ∀ s, pre' s → pre s)
    (hpost : ∀ a s, post a s → post' a s) : p.Asks contract permits pre' post' except :=
  h.mono (fun _ _ h ↦ h) hpre hpost fun _ _ h ↦ h

theorem ret {a : α} (h : ∀ s, pre s → post a s) :
    Asks contract permits pre (Pure.pure a : Program Op A σ ε α) post except :=
  h

theorem throw {e : ε} (h : ∀ s, pre s → except e s) :
    Asks contract permits pre (MonadExcept.throw e : Program Op A σ ε α) post except :=
  h

theorem bind {f : α → Program Op A σ ε β} {post : β → σ → Prop} {mid : α → σ → Prop}
    (h : p.Asks contract permits pre mid except)
    (hf : ∀ a, (f a).Asks contract permits (mid a) post except) :
    Asks contract permits pre (p >>= f) post except := by
  intro s hs
  refine Task.asks_andThen.mpr ((h s hs).mono (fun _ _ h ↦ h) (fun a s ha ↦ hf a s ha) ?_)
  exact fun e s he ↦ he

theorem handle {h : ε → Program Op A σ ε α} {except' : ε → σ → Prop}
    (hp : p.Asks contract permits pre post except')
    (hh : ∀ e, (h e).Asks contract permits (except' e) post except) :
    Asks contract permits pre (tryCatch p h) post except := by
  intro s hs
  refine Task.asks_andThen.mpr ((hp s hs).mono (fun _ _ h ↦ h) (fun a s ha ↦ ha) ?_)
  exact fun e s he ↦ hh e s he

theorem ensuring {q : Program Op A σ ε Unit} {except' : ε → σ → Prop}
    (hp : p.Asks contract permits pre post except')
    (hpost : ∀ a, q.Asks contract permits (post a) (fun _ ↦ post a) except)
    (hexcept : ∀ e, q.Asks contract permits (except' e) (fun _ ↦ except e) except) :
    Asks contract permits pre (p.ensuring q) post except := by
  intro s hs
  refine Task.asks_andThen.mpr ((hp s hs).mono (fun _ _ h ↦ h) ?_ ?_)
  · exact fun a s ha ↦ Task.asks_andThen.mpr
      ((hpost a s ha).mono (fun _ _ h ↦ h) (fun _ _ h ↦ h) fun _ _ h ↦ h)
  · exact fun e s he ↦ Task.asks_andThen.mpr
      ((hexcept e s he).mono (fun _ _ h ↦ h) (fun _ _ h ↦ h) fun _ _ h ↦ h)

theorem call {op : Op} {post : A op → σ → Prop} (hop : ∀ s, pre s → permits s op)
    (hok : ∀ a s, pre s → contract op (.ok a) → post a s)
    (herror : ∀ e s, pre s → except e s) :
    Asks contract permits pre (Program.call op : Program Op A σ ε (A op)) post except := by
  intro s hs
  refine ⟨hop s hs, fun a ha ↦ ?_⟩
  cases a with
  | ok a => exact hok a s hs ha
  | error e => exact herror e s hs

theorem read {post : σ → σ → Prop} (h : ∀ s, pre s → post s s) :
    Asks contract permits pre (Program.read : Program Op A σ ε σ) post except :=
  h

theorem update {f : σ → σ} {post : Unit → σ → Prop} (h : ∀ s, pre s → post () (f s)) :
    Asks contract permits pre (Program.update f : Program Op A σ ε Unit) post except :=
  h

theorem loop {body : τ → Program Op A σ ε (τ ⊕ α)} {I : τ → σ → Prop}
    (h : ∀ t, (body t).Asks contract permits (I t)
      (fun next s ↦ match next with
        | .inl t => I t s
        | .inr a => post a s) except)
    (rounds : ℕ) (t : τ) :
    Asks contract permits (I t) (Program.loop body rounds t) post except := by
  induction rounds generalizing t with
  | zero => exact fun _ _ ↦ trivial
  | succ rounds ih =>
      refine bind (h t) fun next ↦ ?_
      cases next with
      | inl t => exact ih t
      | inr a => exact fun _ hs ↦ hs

theorem forEach {body : β → Program Op A σ ε Unit} {bs : List β}
    (h : ∀ b ∈ bs, (body b).Asks contract permits pre (fun _ ↦ pre) except) :
    Asks contract permits pre (Program.forEach body bs) (fun _ ↦ pre) except := by
  induction bs with
  | nil => exact fun _ hs ↦ hs
  | cons b bs ih =>
      rw [List.forall_mem_cons] at h
      exact bind h.1 fun _ ↦ ih h.2

end Asks

end Program

/-! ## Programs that leave the state of their task alone -/

namespace Program

/-- The program asks only for what `permits` allows and does not change the state
of its task. -/
def Leaves (permits : Op → Prop) (p : Program Op A σ ε α) : Prop :=
  ∀ inv : σ → Prop,
    p.Asks (fun _ _ ↦ True) (fun s op ↦ inv s ∧ permits op) inv (fun _ ↦ inv) fun _ ↦ inv

namespace Leaves

variable {permits permits' : Op → Prop} {p : Program Op A σ ε α}

theorem mono (h : p.Leaves permits) (hpermits : ∀ op, permits op → permits' op) :
    p.Leaves permits' :=
  fun inv ↦ (h inv).mono (fun _ op h ↦ ⟨h.1, hpermits op h.2⟩) (fun _ h ↦ h) (fun _ _ h ↦ h)
    fun _ _ h ↦ h

theorem ret (a : α) : Leaves permits (Pure.pure a : Program Op A σ ε α) := fun _ _ h ↦ h

theorem throw (e : ε) : Leaves permits (MonadExcept.throw e : Program Op A σ ε α) :=
  fun _ _ h ↦ h

theorem bind {f : α → Program Op A σ ε β} (h : p.Leaves permits)
    (hf : ∀ a, (f a).Leaves permits) : Leaves permits (p >>= f) :=
  fun inv ↦ (h inv).bind fun a ↦ hf a inv

theorem handle {h : ε → Program Op A σ ε α} (hp : p.Leaves permits)
    (hh : ∀ e, (h e).Leaves permits) : Leaves permits (tryCatch p h) :=
  fun inv ↦ (hp inv).handle fun e ↦ hh e inv

theorem ensuring {q : Program Op A σ ε Unit} (hp : p.Leaves permits) (hq : q.Leaves permits) :
    Leaves permits (p.ensuring q) :=
  fun inv ↦ (hp inv).ensuring (fun _ ↦ hq inv) fun _ ↦ hq inv

theorem call {op : Op} (h : permits op) :
    Leaves permits (Program.call op : Program Op A σ ε (A op)) :=
  fun _ ↦ Asks.call (fun _ hs ↦ ⟨hs, h⟩) (fun _ _ hs _ ↦ hs) fun _ _ hs ↦ hs

theorem read : Leaves permits (Program.read : Program Op A σ ε σ) := fun _ _ h ↦ h

theorem loop {body : τ → Program Op A σ ε (τ ⊕ α)} (h : ∀ t, (body t).Leaves permits)
    (rounds : ℕ) (t : τ) : Leaves permits (Program.loop body rounds t) := by
  intro inv
  refine Asks.loop (I := fun _ ↦ inv) (fun t ↦ (h t inv).weaken (fun _ h ↦ h) ?_) rounds t
  intro next s hs
  cases next <;> exact hs

theorem forEach {body : β → Program Op A σ ε Unit} {bs : List β}
    (h : ∀ b ∈ bs, (body b).Leaves permits) : Leaves permits (Program.forEach body bs) :=
  fun inv ↦ Asks.forEach fun b hb ↦ h b hb inv

theorem tally {body : β → Program Op A σ ε Bool} (h : ∀ b, (body b).Leaves permits)
    (bs : List β) : Leaves permits (Program.tally body bs) := by
  induction bs with
  | nil => exact ret 0
  | cons b bs ih => exact (h b).bind fun _ ↦ ih.bind fun _ ↦ ret _

/-- What the program does under any contract, in states of which `inv` is known. -/
theorem asks {contract : (op : Op) → Except ε (A op) → Prop} {permits' : σ → Op → Prop}
    {inv : σ → Prop} (h : p.Leaves permits)
    (hpermits : ∀ s op, inv s → permits op → permits' s op) :
    p.Asks contract permits' inv (fun _ ↦ inv) fun _ ↦ inv :=
  fun s hs ↦ ((h inv s hs).of_contract fun _ _ _ ↦ trivial).mono
    (fun s op h ↦ hpermits s op h.1 h.2) (fun _ _ h ↦ h) fun _ _ h ↦ h

end Leaves

/-- As `Leaves`, with a result of which `post` holds. -/
def Yields (permits : Op → Prop) (post : α → Prop) (p : Program Op A σ ε α) : Prop :=
  ∀ inv : σ → Prop,
    p.Asks (fun _ _ ↦ True) (fun s op ↦ inv s ∧ permits op) inv (fun a s ↦ post a ∧ inv s)
      fun _ ↦ inv

namespace Yields

variable {permits : Op → Prop} {p : Program Op A σ ε α} {post : α → Prop}

theorem leaves (h : p.Yields permits post) : p.Leaves permits :=
  fun inv ↦ (h inv).weaken (fun _ h ↦ h) fun _ _ h ↦ h.2

theorem ret {a : α} (h : post a) : Yields permits post (Pure.pure a : Program Op A σ ε α) :=
  fun _ _ hs ↦ ⟨h, hs⟩

theorem throw (e : ε) : Yields permits post (MonadExcept.throw e : Program Op A σ ε α) :=
  fun _ _ h ↦ h

theorem bind {f : α → Program Op A σ ε β} {post' : β → Prop} (h : p.Yields permits post)
    (hf : ∀ a, post a → (f a).Yields permits post') : Yields permits post' (p >>= f) := by
  refine fun inv ↦ Asks.bind (h inv) fun a s hs ↦ ?_
  exact hf a hs.1 inv s hs.2

theorem after {q : Program Op A σ ε β} {f : β → Program Op A σ ε α} (h : q.Leaves permits)
    (hf : ∀ b, (f b).Yields permits post) : Yields permits post (q >>= f) :=
  fun inv ↦ (h inv).bind fun b ↦ hf b inv

end Yields

end Program

/-! ## Programs that keep something of the state of their task -/

namespace Program

/-- The program asks only for what `permits` allows and keeps `inv` of the state of its
task, however it ends. -/
def Keeps (permits : Op → Prop) (inv : σ → Prop) (p : Program Op A σ ε α) : Prop :=
  p.Asks (fun _ _ ↦ True) (fun _ op ↦ permits op) inv (fun _ ↦ inv) fun _ ↦ inv

theorem Leaves.keeps {permits : Op → Prop} {p : Program Op A σ ε α} (h : p.Leaves permits)
    (inv : σ → Prop) : p.Keeps permits inv :=
  h.asks fun _ _ _ hop ↦ hop

namespace Keeps

variable {permits permits' : Op → Prop} {inv : σ → Prop} {p : Program Op A σ ε α}

theorem mono (h : p.Keeps permits inv) (hpermits : ∀ op, permits op → permits' op) :
    p.Keeps permits' inv :=
  Asks.mono h (fun _ op ↦ hpermits op) (fun _ h ↦ h) (fun _ _ h ↦ h) fun _ _ h ↦ h

theorem ret (a : α) : Keeps permits inv (Pure.pure a : Program Op A σ ε α) := fun _ h ↦ h

theorem throw (e : ε) : Keeps permits inv (MonadExcept.throw e : Program Op A σ ε α) :=
  fun _ h ↦ h

theorem bind {f : α → Program Op A σ ε β} (h : p.Keeps permits inv)
    (hf : ∀ a, (f a).Keeps permits inv) : Keeps permits inv (p >>= f) :=
  Asks.bind h hf

theorem handle {h : ε → Program Op A σ ε α} (hp : p.Keeps permits inv)
    (hh : ∀ e, (h e).Keeps permits inv) : Keeps permits inv (tryCatch p h) :=
  Asks.handle hp hh

theorem ensuring {q : Program Op A σ ε Unit} (hp : p.Keeps permits inv)
    (hq : q.Keeps permits inv) : Keeps permits inv (p.ensuring q) :=
  Asks.ensuring hp (fun _ ↦ hq) fun _ ↦ hq

theorem call {op : Op} (h : permits op) :
    Keeps permits inv (Program.call op : Program Op A σ ε (A op)) :=
  Asks.call (fun _ _ ↦ h) (fun _ _ hs _ ↦ hs) fun _ _ hs ↦ hs

theorem read : Keeps permits inv (Program.read : Program Op A σ ε σ) := fun _ h ↦ h

theorem update {f : σ → σ} (h : ∀ s, inv s → inv (f s)) :
    Keeps permits inv (Program.update f : Program Op A σ ε Unit) :=
  Asks.update h

theorem loop {body : τ → Program Op A σ ε (τ ⊕ α)} (h : ∀ t, (body t).Keeps permits inv)
    (rounds : ℕ) (t : τ) : Keeps permits inv (Program.loop body rounds t) := by
  refine Asks.loop (I := fun _ ↦ inv) (fun t ↦ (h t).weaken (fun _ h ↦ h) ?_) rounds t
  intro next s hs
  cases next <;> exact hs

end Keeps

end Program

/-! ## Programs that rely on the answers -/

namespace Program

/-- As long as the answers are as `contract` says, the program asks only for what `permits`
allows and keeps `inv` of the state of its task, however it ends. -/
def Relies (contract : (op : Op) → Except ε (A op) → Prop) (permits : σ → Op → Prop)
    (inv : σ → Prop) (p : Program Op A σ ε α) : Prop :=
  p.Asks contract permits inv (fun _ ↦ inv) fun _ ↦ inv

theorem Leaves.relies {contract : (op : Op) → Except ε (A op) → Prop} {permits : σ → Op → Prop}
    {permitted : Op → Prop} {inv : σ → Prop} {p : Program Op A σ ε α} (h : p.Leaves permitted)
    (hpermits : ∀ s op, inv s → permitted op → permits s op) : p.Relies contract permits inv :=
  h.asks hpermits

namespace Relies

variable {contract : (op : Op) → Except ε (A op) → Prop} {permits permits' : σ → Op → Prop}
  {inv inv' : σ → Prop} {p : Program Op A σ ε α}

/-- What is known of the state in one of several ways. -/
theorem of_forall {ι : Type} {inv : ι → σ → Prop} {permits : ι → σ → Op → Prop}
    (h : ∀ i, p.Relies contract (permits i) (inv i)) :
    p.Relies contract (fun s op ↦ ∃ i, permits i s op) fun s ↦ ∃ i, inv i s := by
  rintro s ⟨i, hs⟩
  exact (h i s hs).mono (fun _ _ h ↦ ⟨i, h⟩) (fun _ _ h ↦ ⟨i, h⟩) fun _ _ h ↦ ⟨i, h⟩

theorem ret (a : α) : Relies contract permits inv (Pure.pure a : Program Op A σ ε α) :=
  fun _ h ↦ h

theorem throw (e : ε) : Relies contract permits inv (MonadExcept.throw e : Program Op A σ ε α) :=
  fun _ h ↦ h

theorem bind {f : α → Program Op A σ ε β} (h : p.Relies contract permits inv)
    (hf : ∀ a, (f a).Relies contract permits inv) : Relies contract permits inv (p >>= f) :=
  Asks.bind h hf

theorem handle {h : ε → Program Op A σ ε α} (hp : p.Relies contract permits inv)
    (hh : ∀ e, (h e).Relies contract permits inv) : Relies contract permits inv (tryCatch p h) :=
  Asks.handle hp hh

theorem ensuring {q : Program Op A σ ε Unit} (hp : p.Relies contract permits inv)
    (hq : q.Relies contract permits inv) : Relies contract permits inv (p.ensuring q) :=
  Asks.ensuring hp (fun _ ↦ hq) fun _ ↦ hq

theorem call {op : Op} (h : ∀ s, inv s → permits s op) :
    Relies contract permits inv (Program.call op : Program Op A σ ε (A op)) :=
  Asks.call h (fun _ _ hs _ ↦ hs) fun _ _ hs ↦ hs

/-- The answer is as the contract says. -/
theorem call_bind {op : Op} {f : A op → Program Op A σ ε β} (h : ∀ s, inv s → permits s op)
    (hf : ∀ a, contract op (.ok a) → (f a).Relies contract permits inv) :
    Relies contract permits inv ((Program.call op : Program Op A σ ε (A op)) >>= f) := by
  have hcall : (Program.call op : Program Op A σ ε (A op)).Asks contract permits inv
      (fun a s ↦ contract op (.ok a) ∧ inv s) fun _ ↦ inv :=
    Asks.call h (fun _ _ hs ha ↦ ⟨ha, hs⟩) fun _ _ hs ↦ hs
  exact Asks.bind hcall fun a s hs ↦ hf a hs.1 s hs.2

theorem update {f : σ → σ} (h : ∀ s, inv s → inv (f s)) :
    Relies contract permits inv (Program.update f : Program Op A σ ε Unit) :=
  Asks.update h

theorem loop {body : τ → Program Op A σ ε (τ ⊕ α)}
    (h : ∀ t, (body t).Relies contract permits inv) (rounds : ℕ) (t : τ) :
    Relies contract permits inv (Program.loop body rounds t) := by
  refine Asks.loop (I := fun _ ↦ inv) (fun t ↦ (h t).weaken (fun _ h ↦ h) ?_) rounds t
  intro next s hs
  cases next <;> exact hs

end Relies

end Program

/-! ## Tasks that share a world -/

/-- Operations on a world, and the programs that may be started.  An operation
without an outcome is not enabled. -/
structure System (Op : Type) (A : Op → Type) (σ ε : Type) where
  World : Type
  Choice : Type
  Entry : Type
  exec : ℕ → Choice → (op : Op) → World → Option (Except ε (A op) × World)
  body : Entry → Program Op A σ ε Unit
  init : Entry → σ
  arrive : Entry → World → World
  crash : World → World

variable {S : System Op A σ ε}

structure Config (S : System Op A σ ε) where
  world : S.World
  threads : List (S.Entry × Task Op A σ ε Unit) := []

/-- A task starts, the operation that a task awaits happens, or all tasks are lost. -/
inductive Move (S : System Op A σ ε)
  | start (entry : S.Entry)
  | step (thread : ℕ) (choice : S.Choice)
  | crash

/-- An operation that happened. -/
structure Event (S : System Op A σ ε) where
  thread : ℕ
  entry : S.Entry
  state : σ
  op : Op
  answer : Except ε (A op)
  before : S.World
  after : S.World

namespace Config

def event (c : Config S) : Move S → Option (Event S)
  | .step i choice =>
      match c.threads[i]? with
      | some (entry, .ask s op _) =>
          (S.exec i choice op c.world).map fun (answer, after) ↦
            { thread := i, entry, state := s, op, answer, before := c.world, after }
      | _ => none
  | .start _ | .crash => none

def apply (c : Config S) : Move S → Config S
  | .start entry =>
      { world := S.arrive entry c.world
        threads := c.threads ++ [(entry, S.body entry (S.init entry))] }
  | .step i choice =>
      match c.threads[i]? with
      | some (entry, .ask _ op next) =>
          match S.exec i choice op c.world with
          | some (answer, after) =>
              { world := after, threads := c.threads.set i (entry, next answer) }
          | none => c
      | _ => c
  | .crash => { world := S.crash c.world }

def run (c : Config S) (moves : List (Move S)) : Config S := moves.foldl apply c

def events (c : Config S) : List (Move S) → List (Event S)
  | [] => []
  | move :: moves => (c.event move).toList ++ (c.apply move).events moves

@[simp] theorem run_nil (c : Config S) : c.run [] = c := rfl

@[simp] theorem run_cons (c : Config S) (move : Move S) (moves : List (Move S)) :
    c.run (move :: moves) = (c.apply move).run moves := rfl

@[simp] theorem events_nil (c : Config S) : c.events [] = [] := rfl

@[simp] theorem events_cons (c : Config S) (move : Move S) (moves : List (Move S)) :
    c.events (move :: moves) = (c.event move).toList ++ (c.apply move).events moves := rfl

theorem run_append (c : Config S) (moves moves' : List (Move S)) :
    c.run (moves ++ moves') = (c.run moves).run moves' := List.foldl_append

theorem events_append (c : Config S) (moves moves' : List (Move S)) :
    c.events (moves ++ moves') = c.events moves ++ (c.run moves).events moves' := by
  induction moves generalizing c with
  | nil => rfl
  | cons move moves ih => simp [ih]

/-- A step that happens, in terms of the task that takes it. -/
theorem exists_of_event {c : Config S} {move : Move S} {e : Event S} (h : c.event move = some e) :
    ∃ choice next, c.threads[e.thread]? = some (e.entry, .ask e.state e.op next) ∧
      S.exec e.thread choice e.op c.world = some (e.answer, e.after) ∧ e.before = c.world ∧
      c.apply move =
        { world := e.after, threads := c.threads.set e.thread (e.entry, next e.answer) } := by
  cases move with
  | start entry => cases h
  | crash => cases h
  | step i choice =>
      simp only [event] at h
      split at h
      · next entry s op next hthread =>
          obtain ⟨⟨answer, after⟩, hexec, rfl⟩ := Option.map_eq_some_iff.mp h
          exact ⟨choice, next, hthread, hexec, rfl, by simp only [apply, hthread, hexec]⟩
      · cases h

/-- Every event of a run is an operation that the world carried out. -/
theorem exec_of_mem_events {c : Config S} {moves : List (Move S)} {e : Event S}
    (he : e ∈ c.events moves) :
    ∃ choice, S.exec e.thread choice e.op e.before = some (e.answer, e.after) := by
  induction moves generalizing c with
  | nil => cases he
  | cons move moves ih =>
      rw [events_cons, List.mem_append, Option.mem_toList] at he
      rcases he with he | he
      · obtain ⟨choice, next, -, hexec, hbefore, -⟩ := exists_of_event he
        exact ⟨choice, hbefore ▸ hexec⟩
      · exact ih he

/-- An event happens after some of the moves. -/
theorem exists_past_of_mem_events {c : Config S} {moves : List (Move S)} {e : Event S}
    (he : e ∈ c.events moves) :
    ∃ past move rest, moves = past ++ move :: rest ∧ (c.run past).event move = some e := by
  induction moves generalizing c with
  | nil => cases he
  | cons first moves ih =>
      rw [events_cons, List.mem_append, Option.mem_toList] at he
      rcases he with he | he
      · exact ⟨[], first, moves, rfl, he⟩
      · obtain ⟨past, move, rest, rfl, hevent⟩ := ih he
        exact ⟨first :: past, move, rest, rfl, hevent⟩

theorem apply_step_of_event_eq_none {c : Config S} {i : ℕ} {choice : S.Choice}
    (h : c.event (.step i choice) = none) : c.apply (.step i choice) = c := by
  simp only [event] at h
  simp only [apply]
  split at h
  · simp only [Option.map_eq_none_iff] at h
    simp only [h]
  · rfl

/-- A move without an event starts a task, loses all tasks or changes nothing. -/
theorem apply_of_event_eq_none {c : Config S} {move : Move S} (h : c.event move = none) :
    (∃ entry, c.apply move =
      { world := S.arrive entry c.world
        threads := c.threads ++ [(entry, S.body entry (S.init entry))] }) ∨
    c.apply move = { world := S.crash c.world } ∨ c.apply move = c := by
  cases move with
  | start entry => exact Or.inl ⟨entry, rfl⟩
  | crash => exact Or.inr (Or.inl rfl)
  | step i choice => exact Or.inr (Or.inr (apply_step_of_event_eq_none h))

/-- What every event, every start and every crash relates, a run relates. -/
theorem run_relates {R : S.World → S.World → Prop} (hrefl : ∀ w, R w w)
    (htrans : ∀ u v w, R u v → R v w → R u w) (harrive : ∀ entry w, R w (S.arrive entry w))
    (hcrash : ∀ w, R w (S.crash w)) {c : Config S} {moves : List (Move S)}
    (hevents : ∀ e ∈ c.events moves, R e.before e.after) : R c.world (c.run moves).world := by
  induction moves generalizing c with
  | nil => exact hrefl _
  | cons move moves ih =>
      simp only [events_cons, List.mem_append, Option.mem_toList] at hevents
      have hstep : R c.world (c.apply move).world := by
        cases hevent : c.event move with
        | some e =>
            obtain ⟨choice, next, -, -, hbefore, happly⟩ := exists_of_event hevent
            have he := hevents e (Or.inl hevent)
            rw [hbefore] at he
            rw [happly]
            exact he
        | none =>
            rcases apply_of_event_eq_none hevent with ⟨entry, h⟩ | h | h <;> rw [h]
            · exact harrive entry c.world
            · exact hcrash c.world
            · exact hrefl c.world
      exact htrans _ _ _ hstep (ih fun e he ↦ hevents e (Or.inr he))

end Config

/-! ## Runs of tasks that ask only for what they may -/

/-- What the tasks of one run ask for, depending on how each was started. -/
structure Config.Asking (permits : S.Entry → σ → Op → Prop)
    (contract : S.Entry → (op : Op) → Except ε (A op) → Prop) (c : Config S) : Prop where
  threads : ∀ thread ∈ c.threads,
    thread.2.Asks (contract thread.1) (permits thread.1) (fun _ _ ↦ True) fun _ _ ↦ True

section Asking

variable {permits : S.Entry → σ → Op → Prop}
  {contract : S.Entry → (op : Op) → Except ε (A op) → Prop}

theorem Config.Asking.of_event {c : Config S} {move : Move S} {e : Event S}
    (hc : c.Asking permits contract) (h : c.event move = some e)
    (hcontract : contract e.entry e.op e.answer) :
    permits e.entry e.state e.op ∧ (c.apply move).Asking permits contract := by
  obtain ⟨choice, next, hthread, -, -, happly⟩ := Config.exists_of_event h
  have hask := hc.threads _ (List.mem_of_getElem? hthread)
  refine ⟨hask.1, ⟨fun thread hmem ↦ ?_⟩⟩
  rw [happly] at hmem
  rcases List.mem_or_eq_of_mem_set hmem with hmem | rfl
  · exact hc.threads thread hmem
  · exact hask.2 _ hcontract

theorem Config.Asking.of_event_eq_none
    (hbody : ∀ entry, (S.body entry (S.init entry)).Asks (contract entry) (permits entry)
      (fun _ _ ↦ True) fun _ _ ↦ True)
    {c : Config S} (hc : c.Asking permits contract) {move : Move S} (h : c.event move = none) :
    (c.apply move).Asking permits contract := by
  rcases Config.apply_of_event_eq_none h with ⟨entry, h⟩ | h | h <;> rw [h]
  · refine ⟨fun thread hmem ↦ ?_⟩
    rcases List.mem_append.mp hmem with hmem | hmem
    · exact hc.threads thread hmem
    · rw [List.mem_singleton.mp hmem]
      exact hbody entry
  · exact ⟨by simp⟩
  · exact hc

/-- What the tasks are left with after a run whose answers were as `contract` says. -/
theorem Config.Asking.run
    (hbody : ∀ entry, (S.body entry (S.init entry)).Asks (contract entry) (permits entry)
      (fun _ _ ↦ True) fun _ _ ↦ True)
    {c : Config S} (hc : c.Asking permits contract) {moves : List (Move S)}
    (hcontract : ∀ e ∈ c.events moves, contract e.entry e.op e.answer) :
    (c.run moves).Asking permits contract := by
  induction moves generalizing c with
  | nil => exact hc
  | cons move moves ih =>
      simp only [Config.events_cons, List.mem_append, Option.mem_toList] at hcontract
      have hstep : (c.apply move).Asking permits contract := by
        cases hevent : c.event move with
        | some e => exact (hc.of_event hevent (hcontract e (Or.inl hevent))).2
        | none => exact hc.of_event_eq_none hbody hevent
      exact ih hstep fun e he ↦ hcontract e (Or.inr he)

/-- Every operation of a run is one that its task may ask for. -/
theorem Config.Asking.permits_of_mem_events
    (hbody : ∀ entry, (S.body entry (S.init entry)).Asks (contract entry) (permits entry)
      (fun _ _ ↦ True) fun _ _ ↦ True)
    {c : Config S} (hc : c.Asking permits contract) {moves : List (Move S)}
    (hcontract : ∀ e ∈ c.events moves, contract e.entry e.op e.answer) :
    ∀ e ∈ c.events moves, permits e.entry e.state e.op := by
  induction moves generalizing c with
  | nil => simp
  | cons move moves ih =>
      simp only [Config.events_cons, List.mem_append, Option.mem_toList] at hcontract ⊢
      have hrest : ∀ e ∈ (c.apply move).events moves, contract e.entry e.op e.answer :=
        fun e he ↦ hcontract e (Or.inr he)
      cases hevent : c.event move with
      | some e₀ =>
          obtain ⟨hpermits, hnext⟩ := hc.of_event hevent (hcontract e₀ (Or.inl hevent))
          rintro e (he | he)
          · cases he
            exact hpermits
          · exact ih hnext hrest e he
      | none =>
          rintro e (he | he)
          · cases he
          · exact ih (hc.of_event_eq_none hbody hevent) hrest e he

end Asking

end Interleave
