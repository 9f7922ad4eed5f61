import MergeQueue.Lib.RelyGuarantee

/-!
# A task that may be told anything

A task alone with its answers.  An observer sums up in a record what has been asked and
answered so far; the record decides which answers may come next and what is kept
whatever they are.
-/

namespace Interleave

variable {Op : Type} {A : Op → Type} {σ ε α β μ τ : Type}

/-- An operation that a task asked for, and the answer. -/
structure Exchange (Op : Type) (A : Op → Type) (ε : Type) where
  op : Op
  answer : Except ε (A op)

/-- What every operation is answered at one moment. -/
abbrev Reply (Op : Type) (A : Op → Type) (ε : Type) := (op : Op) → Except ε (A op)

namespace Task

/-- The exchanges of the task, and what is left of it after the replies. -/
def converse : List (Reply Op A ε) → Task Op A σ ε α → List (Exchange Op A ε) × Task Op A σ ε α
  | reply :: replies, ask _ op next =>
      let (log, rest) := converse replies (next (reply op))
      (⟨op, reply op⟩ :: log, rest)
  | _, t => ([], t)

@[simp] theorem converse_done (replies : List (Reply Op A ε)) (result : Except ε α) (s : σ) :
    (done result s : Task Op A σ ε α).converse replies = ([], done result s) := by
  cases replies <;> rfl

/-- Where the task returns, what follows it gets the replies that are left. -/
theorem converse_andThen {t : Task Op A σ ε α} {f : Except ε α → σ → Task Op A σ ε β}
    {replies : List (Reply Op A ε)} {log : List (Exchange Op A ε)} {result : Except ε α} {s : σ}
    (h : t.converse replies = (log, done result s)) :
    (t.andThen f).converse replies =
      (log ++ ((f result s).converse (replies.drop log.length)).1,
        ((f result s).converse (replies.drop log.length)).2) := by
  induction t generalizing replies log with
  | done result' s' =>
      rw [converse_done] at h
      cases h
      rfl
  | ask s' op next ih =>
      cases replies with
      | nil => cases h
      | cons reply replies =>
          cases hnext : (next (reply op)).converse replies with
          | mk log' rest =>
              simp only [converse, hnext] at h
              obtain ⟨rfl, rfl⟩ := Prod.mk.inj h
              simp only [andThen, converse, ih (reply op) hnext]
              rfl
  | cut => cases replies <;> cases h

/-- A task that still awaits an answer has used all replies. -/
theorem converse_of_ask {t : Task Op A σ ε α} {replies : List (Reply Op A ε)}
    {log : List (Exchange Op A ε)} {s : σ} {op : Op} {next : Except ε (A op) → Task Op A σ ε α}
    (h : t.converse replies = (log, ask s op next)) : log.length = replies.length := by
  induction replies generalizing t log with
  | nil =>
      cases t <;> cases h
      rfl
  | cons reply replies ih =>
      cases t with
      | done result s' => cases h
      | cut => cases h
      | ask s' op' next' =>
          cases hnext : (next' (reply op')).converse replies with
          | mk log' rest =>
              simp only [converse, hnext] at h
              obtain ⟨rfl, rfl⟩ := Prod.mk.inj h
              rw [List.length_cons, List.length_cons, ih hnext]

end Task

/-- How a record of the exchanges is kept. -/
structure Observer (Op : Type) (A : Op → Type) (ε μ : Type) where
  observe : μ → Exchange Op A ε → μ
  allowed : μ → Exchange Op A ε → Prop := fun _ _ ↦ True
  keeps : μ → Prop := fun _ ↦ True

namespace Observer

variable (O : Observer Op A ε μ)

/-- The record after some exchanges. -/
def after (m : μ) (log : List (Exchange Op A ε)) : μ := log.foldl O.observe m

/-- Every exchange is allowed when it happens. -/
def Allows : μ → List (Exchange Op A ε) → Prop
  | _, [] => True
  | m, e :: log => O.allowed m e ∧ Allows (O.observe m e) log

instance decidableAllows [h : ∀ m e, Decidable (O.allowed m e)] :
    ∀ m log, Decidable (O.Allows m log)
  | _, [] => .isTrue trivial
  | m, e :: log =>
      have := decidableAllows (O.observe m e) log
      inferInstanceAs (Decidable (O.allowed m e ∧ O.Allows (O.observe m e) log))

@[simp] theorem after_nil (m : μ) : O.after m [] = m := rfl

@[simp] theorem after_cons (m : μ) (e : Exchange Op A ε) (log : List (Exchange Op A ε)) :
    O.after m (e :: log) = O.after (O.observe m e) log := rfl

theorem allows_append {m : μ} {log log' : List (Exchange Op A ε)} :
    O.Allows m (log ++ log') ↔ O.Allows m log ∧ O.Allows (O.after m log) log' := by
  induction log generalizing m with
  | nil => exact ⟨fun h ↦ ⟨trivial, h⟩, And.right⟩
  | cons e log ih =>
      refine (and_congr_right fun _ ↦ ih).trans ?_
      exact and_assoc.symm

/-- Where every exchange is allowed, whatever the record is. -/
theorem allows_of_forall (h : ∀ m e, O.allowed m e) (m : μ) (log : List (Exchange Op A ε)) :
    O.Allows m log := by
  induction log generalizing m with
  | nil => trivial
  | cons e log ih => exact ⟨h m e, ih _⟩

variable (σ) [Inhabited σ]

/-- The record as a world: an operation has any answer and is put on record. -/
def system : System Op A σ ε where
  World := μ
  Choice := Reply Op A ε
  Entry := Unit
  exec _ reply op m := some (reply op, O.observe m ⟨op, reply op⟩)
  body _ := Program.pure ()
  init _ := default
  arrive _ m := m
  crash m := m

def discipline : Discipline (O.system σ) where
  inv := O.keeps
  rely i w v := i = 0 → v = w
  allowed e := O.allowed e.before ⟨e.op, e.answer⟩
  rely_refl _ _ _ := rfl
  rely_trans _ _ _ _ hu hv hi := (hv hi).trans (hu hi)

end Observer

namespace Program

variable [Inhabited σ] {O : Observer Op A ε μ} {pre : σ → μ → Prop} {p : Program Op A σ ε α}
  {post : α → σ → μ → Prop} {except : ε → σ → μ → Prop}

/-- Started with `pre`, the program keeps what the observer keeps, and ends as `post` or
`except` says of its state and of the record. -/
abbrev Told (O : Observer Op A ε μ) (pre : σ → μ → Prop) (p : Program Op A σ ε α)
    (post : α → σ → μ → Prop) (except : ε → σ → μ → Prop) : Prop :=
  p.Safe (O.discipline σ) 0 () pre post except

namespace Told

theorem call {op : Op} {post : A op → σ → μ → Prop}
    (h : ∀ s m answer, pre s m → O.keeps m → O.allowed m ⟨op, answer⟩ →
      O.keeps (O.observe m ⟨op, answer⟩) ∧
        match answer with
        | .ok a => post a s (O.observe m ⟨op, answer⟩)
        | .error e => except e s (O.observe m ⟨op, answer⟩)) :
    Told O pre (Program.call op : Program Op A σ ε (A op)) post except := by
  refine Safe.call fun s w v hpre hv hkeeps choice answer v' hexec hallowed ↦ ?_
  cases hv rfl
  cases hexec
  obtain ⟨hkept, hpost⟩ := h s w (choice op) hpre hkeeps hallowed
  exact ⟨⟨hkept, fun _ hne hzero ↦ absurd hzero hne, trivial⟩, hpost⟩

/-- As `Safe.loop`, with the invariant of the loop given. -/
theorem loop (I : τ → σ → μ → Prop) {body : τ → Program Op A σ ε (τ ⊕ α)}
    (h : ∀ t, (body t).Told O (I t)
      (fun next s m ↦ match next with
        | .inl t => I t s m
        | .inr a => post a s m) except)
    (rounds : ℕ) (t : τ) : Told O (I t) (Program.loop body rounds t) post except :=
  Safe.loop h rounds t

/-- Any program keeps what every exchange keeps. -/
theorem any (h : ∀ m e, O.keeps m → O.allowed m e → O.keeps (O.observe m e)) :
    p.Told O (fun _ _ ↦ True) (fun _ _ _ ↦ True) fun _ _ _ ↦ True := by
  intro s m _
  induction p s generalizing m with
  | done result s' => cases result <;> trivial
  | ask s' op next ih =>
      intro v hv hkeeps reply answer v' hexec hallowed
      cases hv rfl
      cases hexec
      have hkept : O.keeps (O.observe m ⟨op, reply op⟩) := h m ⟨op, reply op⟩ hkeeps hallowed
      exact ⟨⟨hkept, fun _ hne hzero ↦ absurd hzero hne, trivial⟩, ih (reply op) _⟩
  | cut => trivial

/-- What a program asks for is enough to know what it keeps of the record. -/
theorem of_asks {permits : σ → Op → Prop} {pre : σ → Prop} {post : α → σ → Prop}
    {except : ε → σ → Prop} {keep : μ → Prop}
    (h : p.Asks (fun _ _ ↦ True) permits pre post except)
    (hkeep : ∀ s op m answer, permits s op → keep m → O.keeps m → O.allowed m ⟨op, answer⟩ →
      O.keeps (O.observe m ⟨op, answer⟩) ∧ keep (O.observe m ⟨op, answer⟩)) :
    p.Told O (fun s m ↦ pre s ∧ keep m) (fun a s m ↦ post a s ∧ keep m)
      fun e s m ↦ except e s ∧ keep m := by
  intro s m hs
  refine Task.Asks.safe (h s hs.1) (fun w v hw hv _ ↦ hv rfl ▸ hw) ?_ hs.2
  intro s op v choice answer v' hpermits hkept hkeeps hexec hallowed
  cases hexec
  obtain ⟨hkeeps', hkept'⟩ := hkeep s op v (choice op) hpermits hkept hkeeps hallowed
  exact ⟨trivial, ⟨hkeeps', fun _ hne hzero ↦ absurd hzero hne, trivial⟩, hkept'⟩

end Told

end Program

/-- Through all replies that are allowed, the record keeps what it should, and what is
left of the task is as safe as before. -/
theorem Task.Safe.converse [Inhabited σ] {O : Observer Op A ε μ} {post : α → σ → μ → Prop}
    {except : ε → σ → μ → Prop} {t : Task Op A σ ε α} {m : μ} (hm : O.keeps m)
    (h : t.Safe (O.discipline σ) 0 () post except m) (replies : List (Reply Op A ε))
    (hallows : O.Allows m (t.converse replies).1) :
    O.keeps (O.after m (t.converse replies).1) ∧
      (t.converse replies).2.Safe (O.discipline σ) 0 () post except
        (O.after m (t.converse replies).1) := by
  induction replies generalizing t m with
  | nil => cases t <;> exact ⟨hm, h⟩
  | cons reply replies ih =>
      cases t with
      | done result s => exact ⟨hm, h⟩
      | cut => exact ⟨hm, h⟩
      | ask s op next =>
          obtain ⟨hrespects, hnext⟩ := h m (fun _ ↦ rfl) hm reply _ _ rfl hallows.1
          exact ih hrespects.inv hnext hallows.2

end Interleave
