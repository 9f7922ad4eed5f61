import MergeQueue.Lib.Interleave

/-!
# A task that runs alone

What a task brings about when no other task runs, whatever the choices are, with the
list of the operations that it asked for.
-/

namespace Interleave

variable {Op : Type} {A : Op → Type} {σ ε α β γ : Type} {W C : Type}

/-- A world that only one task changes, with the choices that may be made. -/
structure Stage (Op : Type) (A : Op → Type) (ε W C : Type) where
  exec : C → (op : Op) → W → Option (Except ε (A op) × W)
  fair : C → Prop

variable {S : Stage Op A ε W C}

namespace Task

/-- The task comes to an end, and then `post` holds of its result, of the operations
asked for and of the world. -/
def Finishes (S : Stage Op A ε W C) (post : Except ε α → σ → List Op → W → Prop) :
    Task Op A σ ε α → List Op → W → Prop
  | done result s, log, w => post result s log w
  | ask _ op next, log, w => ∀ choice, S.fair choice → ∃ answer w',
      S.exec choice op w = some (answer, w') ∧ (next answer).Finishes S post (log ++ [op]) w'
  | cut, _, _ => False

variable {post post' : Except ε α → σ → List Op → W → Prop} {t : Task Op A σ ε α}
  {log : List Op} {w : W}

theorem Finishes.mono (h : t.Finishes S post log w)
    (hpost : ∀ result s log w, post result s log w → post' result s log w) :
    t.Finishes S post' log w := by
  induction t generalizing log w with
  | done result s => exact hpost result s log w h
  | ask s op next ih =>
      intro choice hchoice
      obtain ⟨answer, w', hexec, hnext⟩ := h choice hchoice
      exact ⟨answer, w', hexec, ih answer hnext⟩
  | cut => exact h

theorem finishes_andThen {f : Except ε α → σ → Task Op A σ ε β}
    {post : Except ε β → σ → List Op → W → Prop} :
    (t.andThen f).Finishes S post log w ↔
      t.Finishes S (fun result s log w ↦ (f result s).Finishes S post log w) log w := by
  induction t generalizing log w with
  | done result s => rfl
  | ask s op next ih =>
      have hstep : ∀ choice answer w',
          (S.exec choice op w = some (answer, w') ∧
            ((next answer).andThen f).Finishes S post (log ++ [op]) w') ↔
          (S.exec choice op w = some (answer, w') ∧
            (next answer).Finishes S (fun result s log w ↦ (f result s).Finishes S post log w)
              (log ++ [op]) w') :=
        fun choice answer w' ↦ and_congr_right fun _ ↦ ih answer
      simp only [andThen, Finishes, hstep]
  | cut => rfl

/-- Two accounts of one task have an outcome in common. -/
theorem Finishes.exists (hfair : ∃ choice, S.fair choice) (h : t.Finishes S post log w)
    (h' : t.Finishes S post' log w) :
    ∃ result s log' w', post result s log' w' ∧ post' result s log' w' := by
  induction t generalizing log w with
  | done result s => exact ⟨result, s, log, w, h, h'⟩
  | ask s op next ih =>
      obtain ⟨choice, hchoice⟩ := hfair
      obtain ⟨answer, w', hexec, hnext⟩ := h choice hchoice
      obtain ⟨answer', w'', hexec', hnext'⟩ := h' choice hchoice
      cases hexec.symm.trans hexec'
      exact ih answer hnext hnext'
  | cut => exact h.elim

/-- The operations asked for are added to the earlier ones. -/
theorem Finishes.grows (h : t.Finishes S post log w) :
    t.Finishes S (fun result s log' w ↦ post result s log' w ∧ log <+: log') log w := by
  induction t generalizing log w with
  | done result s => exact ⟨h, List.prefix_rfl⟩
  | ask s op next ih =>
      intro choice hchoice
      obtain ⟨answer, w', hexec, hnext⟩ := h choice hchoice
      refine ⟨answer, w', hexec, (ih answer hnext).mono fun _ _ _ _ hpost ↦ ?_⟩
      exact ⟨hpost.1, (List.prefix_append log [op]).trans hpost.2⟩
  | cut => exact h

/-- A task that is run to its end has an outcome. -/
theorem Finishes.outcome (hfair : ∃ choice, S.fair choice) (h : t.Finishes S post log w) :
    ∃ result s log' w', post result s log' w' ∧ log <+: log' := by
  obtain ⟨result, s, log', w', hpost, hgrows⟩ := h.exists hfair h.grows
  exact ⟨result, s, log', w', hpost, hgrows.2⟩

/-- What is known of the first part of a task is known on the way to an outcome. -/
theorem Finishes.passes {f : Except ε α → σ → Task Op A σ ε β}
    {post' : Except ε β → σ → List Op → W → Prop} (hfair : ∃ choice, S.fair choice)
    (h : (t.andThen f).Finishes S post' log w) (ht : t.Finishes S post log w) :
    ∃ result s log₁ w₁ result' s' log₂ w₂, post result s log₁ w₁ ∧ post' result' s' log₂ w₂ ∧
      log₁ <+: log₂ := by
  obtain ⟨result, s, log₁, w₁, hpost, hrest⟩ := ht.exists hfair (finishes_andThen.mp h)
  obtain ⟨result', s', log₂, w₂, hpost', hgrows⟩ := hrest.outcome hfair
  exact ⟨result, s, log₁, w₁, result', s', log₂, w₂, hpost, hpost', hgrows⟩

/-- A task that finishes and asks only for operations that keep `K` finishes with `K`. -/
theorem Finishes.keeps {contract : (op : Op) → Except ε (A op) → Prop} {permits : σ → Op → Prop}
    {apost : α → σ → Prop} {except : ε → σ → Prop} {K : List Op → W → Prop}
    (h : t.Finishes S post log w) (hasks : t.Asks contract permits apost except)
    (hkeeps : ∀ s op choice log w answer w', permits s op → S.fair choice →
      S.exec choice op w = some (answer, w') → K log w → contract op answer ∧ K (log ++ [op]) w')
    (hK : K log w) :
    t.Finishes S
      (fun result s log w ↦ post result s log w ∧ K log w ∧
        match result with
        | .ok a => apost a s
        | .error e => except e s) log w := by
  induction t generalizing log w with
  | done result s =>
      refine ⟨h, hK, ?_⟩
      cases result <;> exact hasks
  | ask s op next ih =>
      intro choice hchoice
      obtain ⟨answer, w', hexec, hnext⟩ := h choice hchoice
      obtain ⟨hcontract, hK'⟩ := hkeeps s op choice log w answer w' hasks.1 hchoice hexec hK
      exact ⟨answer, w', hexec, ih answer hnext (hasks.2 answer hcontract) hK'⟩
  | cut => exact h

end Task

namespace Program

/-- Started in the state `s` and the world `w`, after the operations `log`, the program
comes to an end with `post`. -/
def Finishes (S : Stage Op A ε W C) (p : Program Op A σ ε α) (s : σ) (log : List Op) (w : W)
    (post : Except ε α → σ → List Op → W → Prop) : Prop :=
  (p s).Finishes S post log w

namespace Finishes

variable {p : Program Op A σ ε α} {s : σ} {log : List Op} {w : W}
  {post post' : Except ε α → σ → List Op → W → Prop}

theorem mono (h : p.Finishes S s log w post)
    (hpost : ∀ result s log w, post result s log w → post' result s log w) :
    p.Finishes S s log w post' :=
  Task.Finishes.mono h hpost

theorem ret {a : α} (h : post (.ok a) s log w) :
    Finishes S (Pure.pure a : Program Op A σ ε α) s log w post := h

theorem throw {e : ε} (h : post (.error e) s log w) :
    Finishes S (MonadExcept.throw e : Program Op A σ ε α) s log w post := h

theorem read {post : Except ε σ → σ → List Op → W → Prop} (h : post (.ok s) s log w) :
    Finishes S (Program.read : Program Op A σ ε σ) s log w post := h

theorem update {f : σ → σ} {post : Except ε Unit → σ → List Op → W → Prop}
    (h : post (.ok ()) (f s) log w) :
    Finishes S (Program.update f : Program Op A σ ε Unit) s log w post := h

theorem bind {f : α → Program Op A σ ε β} {post : Except ε β → σ → List Op → W → Prop}
    (h : p.Finishes S s log w fun result s log w ↦
      match result with
      | .ok a => (f a).Finishes S s log w post
      | .error e => post (.error e) s log w) :
    Finishes S (p >>= f) s log w post := by
  refine Task.finishes_andThen.mpr (Task.Finishes.mono h fun result s log w h ↦ ?_)
  cases result <;> exact h

theorem handle {h : ε → Program Op A σ ε α}
    (hp : p.Finishes S s log w fun result s log w ↦
      match result with
      | .ok a => post (.ok a) s log w
      | .error e => (h e).Finishes S s log w post) :
    Finishes S (tryCatch p h) s log w post := by
  refine Task.finishes_andThen.mpr (Task.Finishes.mono hp fun result s log w h ↦ ?_)
  cases result <;> exact h

theorem ensuring {q : Program Op A σ ε Unit}
    (hp : p.Finishes S s log w fun result s log w ↦
      q.Finishes S s log w fun closing s log w ↦
        match closing with
        | .ok () => post result s log w
        | .error e => post (.error e) s log w) :
    Finishes S (p.ensuring q) s log w post := by
  refine Task.finishes_andThen.mpr (Task.Finishes.mono hp fun result s log w h ↦ ?_)
  refine Task.finishes_andThen.mpr (Task.Finishes.mono h fun closing s log w h ↦ ?_)
  cases closing <;> exact h

theorem call {op : Op} {post : Except ε (A op) → σ → List Op → W → Prop}
    (h : ∀ choice, S.fair choice → ∃ answer w', S.exec choice op w = some (answer, w') ∧
      post answer s (log ++ [op]) w') :
    Finishes S (Program.call op : Program Op A σ ε (A op)) s log w post := h

/-- Every element leaves the state behind in which the next one starts. -/
theorem forEach {body : β → Program Op A σ ε Unit} {bs : List β} {I : σ → List Op → W → Prop}
    {post : Except ε Unit → σ → List Op → W → Prop}
    (h : ∀ b ∈ bs, ∀ s log w, I s log w → (body b).Finishes S s log w fun result s log w ↦
      match result with
      | .ok () => I s log w
      | .error e => post (.error e) s log w)
    (hs : I s log w) (hpost : ∀ s log w, I s log w → post (.ok ()) s log w) :
    Finishes S (Program.forEach body bs) s log w post := by
  induction bs generalizing s log w with
  | nil => exact hpost s log w hs
  | cons b bs ih =>
      rw [List.forall_mem_cons] at h
      refine bind ((h.1 s log w hs).mono fun result s log w hr ↦ ?_)
      cases result with
      | ok a => exact ih h.2 hr
      | error e => exact hr

/-- A program that leaves its state alone and finishes keeps what its operations keep. -/
theorem keeps {permits : Op → Prop} {K : List Op → W → Prop} (h : p.Finishes S s log w post)
    (hleaves : p.Leaves permits)
    (hkeeps : ∀ op choice log w answer w', permits op → S.fair choice →
      S.exec choice op w = some (answer, w') → K log w → K (log ++ [op]) w')
    (hK : K log w) :
    p.Finishes S s log w fun result s' log w ↦ post result s' log w ∧ K log w ∧ s' = s := by
  have hstate : (p s).Asks (fun _ _ ↦ True) (fun s' op ↦ s' = s ∧ permits op) (fun _ s' ↦ s' = s)
      fun _ s' ↦ s' = s := hleaves (· = s) s rfl
  refine Task.Finishes.mono (Task.Finishes.keeps h hstate ?_ hK) fun result s' log w h ↦ ?_
  · intro s' op choice log w answer w' hop hchoice hexec hK
    exact ⟨trivial, hkeeps op choice log w answer w' hop.2 hchoice hexec hK⟩
  · obtain ⟨hpost, hK, hs⟩ := h
    refine ⟨hpost, hK, ?_⟩
    cases result <;> exact hs

end Finishes

end Program

/-! ## What a task may lead to -/

namespace Stage

/-- The same world with fewer choices. -/
def restrict (S : Stage Op A ε W C) (fair : C → Prop) : Stage Op A ε W C where
  exec := S.exec
  fair choice := S.fair choice ∧ fair choice

end Stage

namespace Task

theorem Finishes.restrict {t : Task Op A σ ε α} {log : List Op} {w : W}
    {post : Except ε α → σ → List Op → W → Prop} (h : t.Finishes S post log w) (fair : C → Prop) :
    t.Finishes (S.restrict fair) post log w := by
  induction t generalizing log w with
  | done result s => exact h
  | ask s op next ih =>
      intro choice hchoice
      obtain ⟨answer, w', hexec, hnext⟩ := h choice hchoice.1
      exact ⟨answer, w', hexec, ih answer hnext⟩
  | cut => exact h

/-- Some choices lead the task through a world of which `goal` holds. -/
def Reaches (S : Stage Op A ε W C) (goal : W → Prop) : Task Op A σ ε α → W → Prop
  | done _ _, w => goal w
  | ask _ op next, w => goal w ∨ ∃ choice answer w', S.fair choice ∧
      S.exec choice op w = some (answer, w') ∧ (next answer).Reaches S goal w'
  | cut, w => goal w

/-- Whatever the choices are, `inv` holds of every world, and `post` at the end. -/
def Stays (S : Stage Op A ε W C) (inv : W → Prop) (post : Except ε α → σ → W → Prop) :
    Task Op A σ ε α → W → Prop
  | done result s, w => inv w ∧ post result s w
  | ask _ op next, w => inv w ∧ ∀ choice answer w', S.fair choice →
      S.exec choice op w = some (answer, w') → (next answer).Stays S inv post w'
  | cut, w => inv w

/-- The world after the operations that `choices` decide. -/
def follow (S : Stage Op A ε W C) : List C → Task Op A σ ε α → W → W
  | choice :: choices, ask _ op next, w =>
      match S.exec choice op w with
      | some (answer, w') => (next answer).follow S choices w'
      | none => w
  | _, _, w => w

section Reaches

variable {goal inv : W → Prop} {t : Task Op A σ ε α} {w : W}

theorem Reaches.here (h : goal w) : t.Reaches S goal w := by
  cases t with
  | done result s => exact h
  | ask s op next => exact Or.inl h
  | cut => exact h

theorem Stays.here {post : Except ε α → σ → W → Prop} (h : t.Stays S inv post w) : inv w := by
  cases t with
  | done result s => exact h.1
  | ask s op next => exact h.1
  | cut => exact h

/-- A task that stays within `inv` leads to nothing outside. -/
theorem Stays.not_reaches {post : Except ε α → σ → W → Prop} (h : t.Stays S inv post w)
    (hgoal : ∀ w, inv w → ¬ goal w) : ¬ t.Reaches S goal w := by
  induction t generalizing w with
  | done result s => exact hgoal w h.1
  | ask s op next ih =>
      rintro (hw | ⟨choice, answer, w', hfair, hexec, hnext⟩)
      · exact hgoal w h.1 hw
      · exact ih answer (h.2 choice answer w' hfair hexec) hnext
  | cut => exact hgoal w h

theorem Stays.mono {inv' : W → Prop} {post post' : Except ε α → σ → W → Prop}
    (h : t.Stays S inv post w) (hinv : ∀ w, inv w → inv' w)
    (hpost : ∀ result s w, inv w → post result s w → post' result s w) :
    t.Stays S inv' post' w := by
  induction t generalizing w with
  | done result s => exact ⟨hinv w h.1, hpost result s w h.1 h.2⟩
  | ask s op next ih =>
      refine ⟨hinv w h.1, fun choice answer w' hfair hexec ↦ ?_⟩
      exact ih answer (h.2 choice answer w' hfair hexec)
  | cut => exact hinv w h

theorem Stays.andThen {f : Except ε α → σ → Task Op A σ ε β}
    {post : Except ε β → σ → W → Prop}
    (h : t.Stays S inv (fun result s w ↦ (f result s).Stays S inv post w) w) :
    (t.andThen f).Stays S inv post w := by
  induction t generalizing w with
  | done result s => exact h.2
  | ask s op next ih =>
      refine ⟨h.1, fun choice answer w' hfair hexec ↦ ?_⟩
      exact ih answer (h.2 choice answer w' hfair hexec)
  | cut => exact h

/-- A task that asks only for operations that keep `inv` stays within it. -/
theorem Asks.stays {contract : (op : Op) → Except ε (A op) → Prop} {permits : σ → Op → Prop}
    {apost : α → σ → Prop} {except : ε → σ → Prop} (h : t.Asks contract permits apost except)
    (hkeeps : ∀ s op choice w answer w', permits s op → S.fair choice →
      S.exec choice op w = some (answer, w') → inv w → contract op answer ∧ inv w')
    (hw : inv w) :
    t.Stays S inv (fun result s _ ↦
      match result with
      | .ok a => apost a s
      | .error e => except e s) w := by
  induction t generalizing w with
  | done result s =>
      refine ⟨hw, ?_⟩
      cases result <;> exact h
  | ask s op next ih =>
      refine ⟨hw, fun choice answer w' hfair hexec ↦ ?_⟩
      obtain ⟨hcontract, hw'⟩ := hkeeps s op choice w answer w' h.1 hfair hexec hw
      exact ih answer (h.2 answer hcontract) hw'
  | cut => exact hw

theorem Reaches.andThen_left {f : Except ε α → σ → Task Op A σ ε β} (h : t.Reaches S goal w) :
    (t.andThen f).Reaches S goal w := by
  induction t generalizing w with
  | done result s => exact Reaches.here h
  | ask s op next ih =>
      rcases h with h | ⟨choice, answer, w', hfair, hexec, hnext⟩
      · exact Or.inl h
      · exact Or.inr ⟨choice, answer, w', hfair, hexec, ih answer hnext⟩
  | cut => exact h

/-- After its first part has come to an end, the task goes on from there. -/
theorem Reaches.andThen {log : List Op} {f : Except ε α → σ → Task Op A σ ε β}
    (hfair : ∃ choice, S.fair choice)
    (h : t.Finishes S (fun result s _ w ↦ (f result s).Reaches S goal w) log w) :
    (t.andThen f).Reaches S goal w := by
  induction t generalizing log w with
  | done result s => exact h
  | ask s op next ih =>
      obtain ⟨choice, hchoice⟩ := hfair
      obtain ⟨answer, w', hexec, hnext⟩ := h choice hchoice
      exact Or.inr ⟨choice, answer, w', hchoice, hexec, ih answer hnext⟩
  | cut => exact h.elim

/-- More choices lead to no fewer worlds. -/
theorem Reaches.of_fair {S' : Stage Op A ε W C} (h : t.Reaches S goal w)
    (hexec : S'.exec = S.exec) (hfair : ∀ choice, S.fair choice → S'.fair choice) :
    t.Reaches S' goal w := by
  induction t generalizing w with
  | done result s => exact h
  | ask s op next ih =>
      rcases h with h | ⟨choice, answer, w', hchoice, hnext, hreaches⟩
      · exact Or.inl h
      · refine Or.inr ⟨choice, answer, w', hfair choice hchoice, ?_, ih answer hreaches⟩
        rw [hexec]
        exact hnext
  | cut => exact h

end Reaches

end Task

namespace Program

/-- Started in the state `s` and the world `w`, the program may lead to a world of which
`goal` holds. -/
def Reaches (S : Stage Op A ε W C) (p : Program Op A σ ε α) (s : σ) (w : W) (goal : W → Prop) :
    Prop :=
  (p s).Reaches S goal w

/-- Started in the state `s` and the world `w`, the program stays within `inv`. -/
def Stays (S : Stage Op A ε W C) (p : Program Op A σ ε α) (s : σ) (w : W) (inv : W → Prop)
    (post : Except ε α → σ → W → Prop) : Prop :=
  (p s).Stays S inv post w

namespace Reaches

variable {p : Program Op A σ ε α} {s : σ} {log : List Op} {w : W} {goal : W → Prop}

theorem left {f : α → Program Op A σ ε β} (h : p.Reaches S s w goal) :
    Reaches S (p >>= f) s w goal :=
  Task.Reaches.andThen_left h

theorem handle_left {h : ε → Program Op A σ ε α} (hp : p.Reaches S s w goal) :
    Reaches S (tryCatch p h) s w goal :=
  Task.Reaches.andThen_left hp

theorem ensuring_left {q : Program Op A σ ε Unit} (hp : p.Reaches S s w goal) :
    Reaches S (p.ensuring q) s w goal :=
  Task.Reaches.andThen_left hp

theorem bind {f : α → Program Op A σ ε β} (hfair : ∃ choice, S.fair choice)
    (h : p.Finishes S s log w fun result s _ w ↦
      match result with
      | .ok a => (f a).Reaches S s w goal
      | .error _ => goal w) :
    Reaches S (p >>= f) s w goal := by
  refine Task.Reaches.andThen hfair (Task.Finishes.mono h fun result s log w h ↦ ?_)
  cases result <;> exact h

end Reaches

namespace Stays

variable {p : Program Op A σ ε α} {s : σ} {w : W} {inv : W → Prop}
  {post post' : Except ε α → σ → W → Prop}

theorem mono {inv' : W → Prop} (h : p.Stays S s w inv post) (hinv : ∀ w, inv w → inv' w)
    (hpost : ∀ result s w, inv w → post result s w → post' result s w) :
    p.Stays S s w inv' post' :=
  Task.Stays.mono h hinv hpost

theorem weaken (h : p.Stays S s w inv post)
    (hpost : ∀ result s w, inv w → post result s w → post' result s w) :
    p.Stays S s w inv post' :=
  h.mono (fun _ h ↦ h) hpost

theorem ret {a : α} (hw : inv w) (h : post (.ok a) s w) :
    Stays S (Pure.pure a : Program Op A σ ε α) s w inv post := ⟨hw, h⟩

theorem throw {e : ε} (hw : inv w) (h : post (.error e) s w) :
    Stays S (MonadExcept.throw e : Program Op A σ ε α) s w inv post := ⟨hw, h⟩

theorem read {post : Except ε σ → σ → W → Prop} (hw : inv w) (h : post (.ok s) s w) :
    Stays S (Program.read : Program Op A σ ε σ) s w inv post := ⟨hw, h⟩

theorem update {f : σ → σ} {post : Except ε Unit → σ → W → Prop} (hw : inv w)
    (h : post (.ok ()) (f s) w) :
    Stays S (Program.update f : Program Op A σ ε Unit) s w inv post := ⟨hw, h⟩

theorem bind {f : α → Program Op A σ ε β} {post : Except ε β → σ → W → Prop}
    (h : p.Stays S s w inv fun result s w ↦
      match result with
      | .ok a => (f a).Stays S s w inv post
      | .error e => post (.error e) s w) :
    Stays S (p >>= f) s w inv post := by
  refine Task.Stays.andThen (Task.Stays.mono h (fun _ h ↦ h) fun result s w hw h ↦ ?_)
  cases result with
  | ok a => exact h
  | error e => exact ⟨hw, h⟩

theorem handle {h : ε → Program Op A σ ε α}
    (hp : p.Stays S s w inv fun result s w ↦
      match result with
      | .ok a => post (.ok a) s w
      | .error e => (h e).Stays S s w inv post) :
    Stays S (tryCatch p h) s w inv post := by
  refine Task.Stays.andThen (Task.Stays.mono hp (fun _ h ↦ h) fun result s w hw h ↦ ?_)
  cases result with
  | ok a => exact ⟨hw, h⟩
  | error e => exact h

theorem ensuring {q : Program Op A σ ε Unit}
    (hp : p.Stays S s w inv fun result s w ↦
      q.Stays S s w inv fun closing s w ↦
        match closing with
        | .ok () => post result s w
        | .error e => post (.error e) s w) :
    Stays S (p.ensuring q) s w inv post := by
  refine Task.Stays.andThen (Task.Stays.mono hp (fun _ h ↦ h) fun result s w hw h ↦ ?_)
  refine Task.Stays.andThen (Task.Stays.mono h (fun _ h ↦ h) fun closing s w hw h ↦ ?_)
  cases closing <;> exact ⟨hw, h⟩

theorem call {op : Op} {post : Except ε (A op) → σ → W → Prop} (hw : inv w)
    (h : ∀ choice answer w', S.fair choice → S.exec choice op w = some (answer, w') →
      inv w' ∧ post answer s w') :
    Stays S (Program.call op : Program Op A σ ε (A op)) s w inv post := ⟨hw, h⟩

/-- A program that leaves its state alone keeps what its operations keep. -/
theorem of_leaves {permits : Op → Prop} (h : p.Leaves permits)
    (hkeeps : ∀ op choice w answer w', permits op → S.fair choice →
      S.exec choice op w = some (answer, w') → inv w → inv w')
    (hw : inv w) : p.Stays S s w inv fun _ s' _ ↦ s' = s := by
  refine Task.Stays.mono (Task.Asks.stays (h (· = s) s rfl) ?_ hw) (fun _ h ↦ h) ?_
  · intro s' op choice w answer w' hop hfair hexec hw
    exact ⟨trivial, hkeeps op choice w answer w' hop.2 hfair hexec hw⟩
  · intro result s' w _ hs
    cases result <;> exact hs

end Stays

end Program

end Interleave
