import MergeQueue.Lib.Interleave

/-!
# Relying on the other tasks

A task is safe when, as long as the other tasks change the world only as it
relies on, each of its own steps keeps the invariant, does what the others rely
on, and is good.  In a run of safe tasks every step is good.
-/

namespace Interleave

variable {Op : Type} {A : Op → Type} {σ ε α β γ τ : Type} {S : System Op A σ ε}

/-- What the tasks of a system rely on, what is assumed of their steps, and what is
shown of them. -/
structure Discipline (S : System Op A σ ε) where
  inv : S.World → Prop
  rely : ℕ → S.World → S.World → Prop
  allowed : Event S → Prop := fun _ ↦ True
  good : Event S → Prop := fun _ ↦ True
  rely_refl : ∀ i w, rely i w w
  rely_trans : ∀ i u v w, rely i u v → rely i v w → rely i u w

/-- The step keeps the invariant, is good, and does what the other tasks rely on. -/
structure Discipline.Respects (D : Discipline S) (e : Event S) : Prop where
  inv : D.inv e.after
  rely : ∀ j ≠ e.thread, D.rely j e.before e.after
  good : D.good e

namespace Task

variable (D : Discipline S) (i : ℕ) (entry : S.Entry)

/-- Run as task number `i`, every step respects the discipline. -/
def Safe (post : α → σ → S.World → Prop) (except : ε → σ → S.World → Prop) :
    Task Op A σ ε α → S.World → Prop
  | done (.ok a) s, w => post a s w
  | done (.error e) s, w => except e s w
  | ask s op next, w =>
      ∀ v, D.rely i w v → D.inv v → ∀ choice answer v',
        S.exec i choice op v = some (answer, v') →
          D.allowed ⟨i, entry, s, op, answer, v, v'⟩ →
            D.Respects ⟨i, entry, s, op, answer, v, v'⟩ ∧
              (next answer).Safe post except v'
  | cut, _ => True

variable {D i entry} {post post' : α → σ → S.World → Prop}
  {except except' : ε → σ → S.World → Prop}

theorem Safe.mono {t : Task Op A σ ε α} {w : S.World} (h : t.Safe D i entry post except w)
    (hpost : ∀ a s v, post a s v → post' a s v)
    (hexcept : ∀ e s v, except e s v → except' e s v) : t.Safe D i entry post' except' w := by
  induction t generalizing w with
  | done result s =>
      cases result with
      | ok a => exact hpost a s w h
      | error e => exact hexcept e s w h
  | ask s op next ih =>
      intro v hv hinv choice answer v' hexec hallowed
      obtain ⟨hrespects, hnext⟩ := h v hv hinv choice answer v' hexec hallowed
      exact ⟨hrespects, ih answer hnext⟩
  | cut => trivial

theorem Safe.andThen {t : Task Op A σ ε α} {f : Except ε α → σ → Task Op A σ ε β}
    {post : β → σ → S.World → Prop} {w : S.World}
    (h : t.Safe D i entry (fun a s v ↦ (f (.ok a) s).Safe D i entry post except v)
      (fun e s v ↦ (f (.error e) s).Safe D i entry post except v) w) :
    (t.andThen f).Safe D i entry post except w := by
  induction t generalizing w with
  | done result s => cases result <;> exact h
  | ask s op next ih =>
      intro v hv hinv choice answer v' hexec hallowed
      obtain ⟨hrespects, hnext⟩ := h v hv hinv choice answer v' hexec hallowed
      exact ⟨hrespects, ih answer hnext⟩
  | cut => trivial

/-- A task stays safe while the others do what it relies on. -/
theorem Safe.stable {t : Task Op A σ ε α} {w v : S.World} (h : t.Safe D i entry post except w)
    (hpost : ∀ a s, post a s w → post a s v) (hexcept : ∀ e s, except e s w → except e s v)
    (hv : D.rely i w v) : t.Safe D i entry post except v := by
  cases t with
  | done result s =>
      cases result with
      | ok a => exact hpost a s h
      | error e => exact hexcept e s h
  | ask s op next => exact fun u hu ↦ h u (D.rely_trans i w v u hv hu)
  | cut => trivial

theorem Safe.of_rely {t : Task Op A σ ε α} {w v : S.World}
    (h : t.Safe D i entry (fun _ _ _ ↦ True) (fun _ _ _ ↦ True) w) (hv : D.rely i w v) :
    t.Safe D i entry (fun _ _ _ ↦ True) (fun _ _ _ ↦ True) v :=
  h.stable (fun _ _ h ↦ h) (fun _ _ h ↦ h) hv

/-- A task that asks only for what it may is safe when each such operation is. -/
theorem Asks.safe {contract : (op : Op) → Except ε (A op) → Prop} {permits : σ → Op → Prop}
    {post : α → σ → Prop} {except : ε → σ → Prop} {keep : S.World → Prop}
    {t : Task Op A σ ε α} {w : S.World} (h : t.Asks contract permits post except)
    (hrely : ∀ w v, keep w → D.rely i w v → D.inv v → keep v)
    (hstep : ∀ s op v choice answer v', permits s op → keep v → D.inv v →
      S.exec i choice op v = some (answer, v') → D.allowed ⟨i, entry, s, op, answer, v, v'⟩ →
        contract op answer ∧ D.Respects ⟨i, entry, s, op, answer, v, v'⟩ ∧ keep v')
    (hw : keep w) :
    t.Safe D i entry (fun a s v ↦ post a s ∧ keep v) (fun e s v ↦ except e s ∧ keep v) w := by
  induction t generalizing w with
  | done result s => cases result <;> exact ⟨h, hw⟩
  | ask s op next ih =>
      intro v hv hinv choice answer v' hexec hallowed
      obtain ⟨hcontract, hrespects, hkeep⟩ :=
        hstep s op v choice answer v' h.1 (hrely w v hw hv hinv) hinv hexec hallowed
      exact ⟨hrespects, ih answer (h.2 answer hcontract) hkeep⟩
  | cut => trivial

end Task

namespace Program

/-- Started in a state and a world with `pre`, the program is safe. -/
def Safe (D : Discipline S) (i : ℕ) (entry : S.Entry) (pre : σ → S.World → Prop)
    (p : Program Op A σ ε α) (post : α → σ → S.World → Prop)
    (except : ε → σ → S.World → Prop) : Prop :=
  ∀ s w, pre s w → (p s).Safe D i entry post except w

namespace Safe

variable {D : Discipline S} {i : ℕ} {entry : S.Entry} {pre pre' : σ → S.World → Prop}
  {p : Program Op A σ ε α} {post post' : α → σ → S.World → Prop}
  {except except' : ε → σ → S.World → Prop}

theorem mono (h : p.Safe D i entry pre post except) (hpre : ∀ s w, pre' s w → pre s w)
    (hpost : ∀ a s w, post a s w → post' a s w)
    (hexcept : ∀ e s w, except e s w → except' e s w) : p.Safe D i entry pre' post' except' :=
  fun s w hs ↦ (h s w (hpre s w hs)).mono hpost hexcept

theorem ret {a : α} (h : ∀ s w, pre s w → post a s w) :
    Safe D i entry pre (Pure.pure a : Program Op A σ ε α) post except :=
  h

theorem throw {e : ε} (h : ∀ s w, pre s w → except e s w) :
    Safe D i entry pre (MonadExcept.throw e : Program Op A σ ε α) post except :=
  h

theorem bind {f : α → Program Op A σ ε β} {post : β → σ → S.World → Prop}
    {mid : α → σ → S.World → Prop} (h : p.Safe D i entry pre mid except)
    (hf : ∀ a, (f a).Safe D i entry (mid a) post except) :
    Safe D i entry pre (p >>= f) post except := by
  intro s w hs
  exact ((h s w hs).mono (fun a s v ha ↦ hf a s v ha) fun e s v he ↦ he).andThen

theorem handle {h : ε → Program Op A σ ε α} (hp : p.Safe D i entry pre post except')
    (hh : ∀ e, (h e).Safe D i entry (except' e) post except) :
    Safe D i entry pre (tryCatch p h) post except := by
  intro s w hs
  exact ((hp s w hs).mono (fun a s v ha ↦ ha) fun e s v he ↦ hh e s v he).andThen

theorem ensuring {q : Program Op A σ ε Unit} (hp : p.Safe D i entry pre post except')
    (hpost : ∀ a, q.Safe D i entry (post a) (fun _ ↦ post' a) except)
    (hexcept : ∀ e, q.Safe D i entry (except' e) (fun _ ↦ except e) except) :
    Safe D i entry pre (p.ensuring q) post' except := by
  intro s w hs
  refine ((hp s w hs).mono (fun a s v ha ↦ ?_) fun e s v he ↦ ?_).andThen
  · exact ((hpost a s v ha).mono (fun _ _ _ h ↦ h) fun _ _ _ h ↦ h).andThen
  · exact ((hexcept e s v he).mono (fun _ _ _ h ↦ h) fun _ _ _ h ↦ h).andThen

/-- The operation happens in a world that the other tasks may have reached since `pre` held. -/
theorem call {op : Op} {post : A op → σ → S.World → Prop}
    (h : ∀ s w v, pre s w → D.rely i w v → D.inv v → ∀ choice answer v',
      S.exec i choice op v = some (answer, v') → D.allowed ⟨i, entry, s, op, answer, v, v'⟩ →
        D.Respects ⟨i, entry, s, op, answer, v, v'⟩ ∧
          match answer with
          | .ok a => post a s v'
          | .error e => except e s v') :
    Safe D i entry pre (Program.call op : Program Op A σ ε (A op)) post except := by
  intro s w hs v hv hinv choice answer v' hexec hallowed
  obtain ⟨hrespects, hpost⟩ := h s w v hs hv hinv choice answer v' hexec hallowed
  refine ⟨hrespects, ?_⟩
  cases answer <;> exact hpost

theorem read {post : σ → σ → S.World → Prop} (h : ∀ s w, pre s w → post s s w) :
    Safe D i entry pre (Program.read : Program Op A σ ε σ) post except :=
  h

theorem update {f : σ → σ} {post : Unit → σ → S.World → Prop}
    (h : ∀ s w, pre s w → post () (f s) w) :
    Safe D i entry pre (Program.update f : Program Op A σ ε Unit) post except :=
  h

theorem loop {body : τ → Program Op A σ ε (τ ⊕ α)} {inv : τ → σ → S.World → Prop}
    (h : ∀ t, (body t).Safe D i entry (inv t)
      (fun next s w ↦ match next with
        | .inl t => inv t s w
        | .inr a => post a s w) except)
    (rounds : ℕ) (t : τ) : Safe D i entry (inv t) (Program.loop body rounds t) post except := by
  induction rounds generalizing t with
  | zero => exact fun _ _ _ ↦ trivial
  | succ rounds ih =>
      refine bind (h t) fun next ↦ ?_
      cases next with
      | inl t => exact ih t
      | inr a => exact fun _ _ hs ↦ hs

theorem forEach {body : β → Program Op A σ ε Unit} {bs : List β}
    (h : ∀ b ∈ bs, (body b).Safe D i entry pre (fun _ ↦ pre) except) :
    Safe D i entry pre (Program.forEach body bs) (fun _ ↦ pre) except := by
  induction bs with
  | nil => exact fun _ _ hs ↦ hs
  | cons b bs ih =>
      rw [List.forall_mem_cons] at h
      exact bind h.1 fun _ ↦ ih h.2

/-- As `forEach`, where `inv` tells what is known with some of the elements left. -/
theorem forEach_left {body : β → Program Op A σ ε Unit} {inv : List β → σ → S.World → Prop}
    (h : ∀ b bs, (body b).Safe D i entry (inv (b :: bs)) (fun _ ↦ inv bs) except) (bs : List β) :
    Safe D i entry (inv bs) (Program.forEach body bs) (fun _ ↦ inv []) except := by
  induction bs with
  | nil => exact fun _ _ hs ↦ hs
  | cons b bs ih => exact bind (h b bs) fun _ ↦ ih

/-- The elements are dealt with one by one; `inv` tells what is known with some of them left. -/
theorem tally {body : β → Program Op A σ ε Bool} {inv : List β → σ → S.World → Prop}
    (h : ∀ b bs, (body b).Safe D i entry (inv (b :: bs)) (fun _ ↦ inv bs) except) (bs : List β) :
    Safe D i entry (inv bs) (Program.tally body bs) (fun _ ↦ inv []) except := by
  induction bs with
  | nil => exact fun _ _ hs ↦ hs
  | cons b bs ih => exact bind (h b bs) fun _ ↦ bind ih fun _ ↦ fun _ _ hs ↦ hs

/-- A program that asks only for what it may keeps what each such operation keeps. -/
theorem of_leaves {permits : Op → Prop} {keep : S.World → Prop} (h : p.Leaves permits)
    (hrely : ∀ w v, keep w → D.rely i w v → D.inv v → keep v)
    (hstep : ∀ s op v choice answer v', permits op → keep v → D.inv v →
      S.exec i choice op v = some (answer, v') → D.allowed ⟨i, entry, s, op, answer, v, v'⟩ →
        D.Respects ⟨i, entry, s, op, answer, v, v'⟩ ∧ keep v') :
    p.Safe D i entry (fun _ ↦ keep) (fun _ _ ↦ keep) fun _ _ ↦ keep := by
  intro s w hw
  refine Task.Safe.mono (Task.Asks.safe (h (fun _ ↦ True) s trivial) hrely ?_ hw)
    (fun _ _ _ h ↦ h.2) fun _ _ _ h ↦ h.2
  intro s op v choice answer v' hpermits hkeep hinv hexec hallowed
  exact ⟨trivial, hstep s op v choice answer v' hpermits.2 hkeep hinv hexec hallowed⟩

end Safe

end Program

/-! ## Runs of safe tasks -/

structure Config.Safe (D : Discipline S) (c : Config S) : Prop where
  inv : D.inv c.world
  threads : ∀ (i : ℕ) entry task, c.threads[i]? = some (entry, task) →
    task.Safe D i entry (fun _ _ _ ↦ True) (fun _ _ _ ↦ True) c.world

/-- Any task may start in any world with the invariant, and all of them may be lost. -/
structure Discipline.Sustained (D : Discipline S) : Prop where
  arrive : ∀ entry w, D.inv w →
    D.inv (S.arrive entry w) ∧ ∀ i, D.rely i w (S.arrive entry w)
  body : ∀ entry i w, D.inv w → (S.body entry (S.init entry)).Safe D i entry
    (fun _ _ _ ↦ True) (fun _ _ _ ↦ True) (S.arrive entry w)
  crash : ∀ w, D.inv w → D.inv (S.crash w)

namespace Config.Safe

variable {D : Discipline S} {c : Config S}

theorem of_event {move : Move S} {e : Event S} (hc : c.Safe D) (h : c.event move = some e)
    (hallowed : D.allowed e) : D.good e ∧ (c.apply move).Safe D := by
  obtain ⟨choice, next, hthread, hexec, hbefore, happly⟩ := Config.exists_of_event h
  obtain ⟨i, entry, s, op, answer, before, after⟩ := e
  cases hbefore
  obtain ⟨hrespects, hnext⟩ := hc.threads _ _ _ hthread c.world (D.rely_refl _ _) hc.inv choice
    answer after hexec hallowed
  refine ⟨hrespects.good, ?_⟩
  rw [happly]
  refine ⟨hrespects.inv, fun j entry' task hj ↦ ?_⟩
  rw [List.getElem?_set] at hj
  split at hj
  · next heq =>
      cases heq
      split at hj
      · cases hj
        exact hnext
      · cases hj
  · next hne => exact (hc.threads j entry' task hj).of_rely (hrespects.rely j (Ne.symm hne))

theorem of_event_eq_none {move : Move S} (hD : D.Sustained) (hc : c.Safe D)
    (h : c.event move = none) : (c.apply move).Safe D := by
  rcases Config.apply_of_event_eq_none h with ⟨entry, h⟩ | h | h <;> rw [h]
  · obtain ⟨hinv, hrely⟩ := hD.arrive entry c.world hc.inv
    refine ⟨hinv, fun i entry' task hi ↦ ?_⟩
    rw [List.getElem?_append] at hi
    split at hi
    · exact (hc.threads i entry' task hi).of_rely (hrely i)
    · cases List.mem_singleton.mp (List.mem_of_getElem? hi)
      exact hD.body entry i c.world hc.inv
  · exact ⟨hD.crash c.world hc.inv, by simp⟩
  · exact hc

/-- In a run whose steps are all allowed, every step is good. -/
theorem run (hD : D.Sustained) (hc : c.Safe D) {moves : List (Move S)}
    (hallowed : ∀ e ∈ c.events moves, D.allowed e) :
    (∀ e ∈ c.events moves, D.good e) ∧ (c.run moves).Safe D := by
  induction moves generalizing c with
  | nil => exact ⟨by simp, hc⟩
  | cons move moves ih =>
      simp only [Config.events_cons, List.mem_append, Option.mem_toList] at hallowed ⊢
      have hstep : (∀ e ∈ c.event move, D.good e) ∧ (c.apply move).Safe D := by
        cases hevent : c.event move with
        | some e =>
            obtain ⟨hgood, hnext⟩ := hc.of_event hevent (hallowed e (Or.inl hevent))
            refine ⟨fun e' he' ↦ ?_, hnext⟩
            cases he'
            exact hgood
        | none => exact ⟨by simp, hc.of_event_eq_none hD hevent⟩
      obtain ⟨hrest, hend⟩ := ih hstep.2 fun e he ↦ hallowed e (Or.inr he)
      exact ⟨fun e he ↦ he.elim (hstep.1 e) (hrest e), hend⟩

/-! ### What a task returns -/

section Result

variable {i : ℕ} {entry : S.Entry} {task : Task Op A σ ε Unit}
  {post : Unit → σ → S.World → Prop} {except : ε → σ → S.World → Prop}

theorem thread_apply (hD : D.Sustained) (hc : c.Safe D)
    (hpost : ∀ a s w v, post a s w → D.rely i w v → post a s v)
    (hexcept : ∀ e s w v, except e s w → D.rely i w v → except e s v)
    (hthread : c.threads[i]? = some (entry, task))
    (htask : task.Safe D i entry post except c.world) {move : Move S} (hmove : move ≠ .crash)
    (hallowed : ∀ e ∈ c.event move, D.allowed e) :
    ∃ task', (c.apply move).threads[i]? = some (entry, task') ∧
      task'.Safe D i entry post except (c.apply move).world := by
  cases hevent : c.event move with
  | some e =>
      obtain ⟨choice, next, hstepping, hexec, hbefore, happly⟩ := Config.exists_of_event hevent
      have hallowed := hallowed e hevent
      obtain ⟨j, entry', s, op, answer, before, after⟩ := e
      cases hbefore
      rw [happly]
      by_cases hij : j = i
      · subst hij
        cases hthread.symm.trans hstepping
        obtain ⟨-, hnext⟩ := htask c.world (D.rely_refl _ _) hc.inv choice answer after hexec
          hallowed
        have hlt : j < c.threads.length := (List.getElem?_eq_some_iff.mp hthread).1
        exact ⟨next answer, by simp [hlt], hnext⟩
      · refine ⟨task, by simp only [List.getElem?_set_ne hij, hthread], ?_⟩
        have hrely := ((hc.threads _ _ _ hstepping c.world (D.rely_refl _ _) hc.inv choice answer
          after hexec hallowed).1).rely i (Ne.symm hij)
        exact htask.stable (fun a s h ↦ hpost a s _ _ h hrely)
          (fun e s h ↦ hexcept e s _ _ h hrely) hrely
  | none =>
      cases move with
      | start entry' =>
          have hlt : i < c.threads.length := (List.getElem?_eq_some_iff.mp hthread).1
          have hrely := (hD.arrive entry' c.world hc.inv).2 i
          refine ⟨task, ?_, htask.stable (fun a s h ↦ hpost a s _ _ h hrely)
            (fun e s h ↦ hexcept e s _ _ h hrely) hrely⟩
          simp only [Config.apply]
          rw [List.getElem?_append_left hlt, hthread]
      | step j choice =>
          rw [Config.apply_step_of_event_eq_none hevent]
          exact ⟨task, hthread, htask⟩
      | crash => exact absurd rfl hmove

/-- A task that is safe, with a result that lasts, is so after any further run without
a crash. -/
theorem thread_run (hD : D.Sustained) (hc : c.Safe D)
    (hpost : ∀ a s w v, post a s w → D.rely i w v → post a s v)
    (hexcept : ∀ e s w v, except e s w → D.rely i w v → except e s v)
    (hthread : c.threads[i]? = some (entry, task))
    (htask : task.Safe D i entry post except c.world) {moves : List (Move S)}
    (hmoves : ∀ move ∈ moves, move ≠ .crash) (hallowed : ∀ e ∈ c.events moves, D.allowed e) :
    ∃ task', (c.run moves).threads[i]? = some (entry, task') ∧
      task'.Safe D i entry post except (c.run moves).world := by
  induction moves generalizing c task with
  | nil => exact ⟨task, hthread, htask⟩
  | cons move moves ih =>
      rw [List.forall_mem_cons] at hmoves
      simp only [Config.events_cons, List.mem_append, Option.mem_toList] at hallowed
      have hfirst : ∀ e ∈ c.event move, D.allowed e := fun e he ↦ hallowed e (Or.inl he)
      obtain ⟨task', hthread', htask'⟩ :=
        thread_apply hD hc hpost hexcept hthread htask hmoves.1 hfirst
      have hnext : (c.apply move).Safe D := by
        cases hevent : c.event move with
        | some e => exact (hc.of_event hevent (hfirst e hevent)).2
        | none => exact hc.of_event_eq_none hD hevent
      exact ih hnext hthread' htask' hmoves.2 fun e he ↦ hallowed e (Or.inr he)

/-- Every task ends as `post` and `except` say of its entry. -/
def EndsAs (D : Discipline S) (post : ℕ → S.Entry → σ → S.World → Prop)
    (except : ℕ → S.Entry → ε → σ → S.World → Prop) (c : Config S) : Prop :=
  ∀ (i : ℕ) entry task, c.threads[i]? = some (entry, task) →
    task.Safe D i entry (fun _ s w ↦ post i entry s w) (fun e s w ↦ except i entry e s w) c.world

variable {posts : ℕ → S.Entry → σ → S.World → Prop}
  {excepts : ℕ → S.Entry → ε → σ → S.World → Prop}

theorem endsAs_apply (hD : D.Sustained) (hc : c.Safe D) (hends : EndsAs D posts excepts c)
    (hbody : ∀ entry i w, D.inv w → (S.body entry (S.init entry)).Safe D i entry
      (fun _ s w ↦ posts i entry s w) (fun e s w ↦ excepts i entry e s w) (S.arrive entry w))
    (hpost : ∀ i entry s w v, posts i entry s w → D.rely i w v → posts i entry s v)
    (hexcept : ∀ i entry e s w v, excepts i entry e s w → D.rely i w v → excepts i entry e s v)
    {move : Move S} (hallowed : ∀ e ∈ c.event move, D.allowed e) :
    EndsAs D posts excepts (c.apply move) := by
  intro i entry task htask
  by_cases hcrash : move = .crash
  · subst hcrash
    simp [Config.apply] at htask
  cases hold : c.threads[i]? with
  | some old =>
      obtain ⟨task', htask', hsafe⟩ := hc.thread_apply hD (fun _ s w v ↦ hpost i old.1 s w v)
        (fun e s w v ↦ hexcept i old.1 e s w v) hold (hends i old.1 old.2 hold) hcrash hallowed
      cases htask.symm.trans htask'
      exact hsafe
  | none =>
      cases move with
      | start entry' =>
          simp only [Config.apply, List.getElem?_append] at htask
          split at htask
          · cases hold.symm.trans htask
          · cases List.mem_singleton.mp (List.mem_of_getElem? htask)
            exact hbody entry i c.world hc.inv
      | step j choice =>
          cases hevent : c.event (.step j choice) with
          | some e =>
              obtain ⟨-, next, -, -, -, happly⟩ := Config.exists_of_event hevent
              rw [happly, List.getElem?_set] at htask
              split at htask
              · next heq =>
                  split at htask
                  · next hlt =>
                      subst heq
                      rw [List.getElem?_eq_getElem hlt] at hold
                      cases hold
                  · cases htask
              · cases hold.symm.trans htask
          | none =>
              rw [Config.apply_step_of_event_eq_none hevent] at htask
              cases hold.symm.trans htask
      | crash => exact absurd rfl hcrash

/-- In a run of safe tasks every task that ends does so as its entry says. -/
theorem endsAs_run (hD : D.Sustained) (hc : c.Safe D) (hends : EndsAs D posts excepts c)
    (hbody : ∀ entry i w, D.inv w → (S.body entry (S.init entry)).Safe D i entry
      (fun _ s w ↦ posts i entry s w) (fun e s w ↦ excepts i entry e s w) (S.arrive entry w))
    (hpost : ∀ i entry s w v, posts i entry s w → D.rely i w v → posts i entry s v)
    (hexcept : ∀ i entry e s w v, excepts i entry e s w → D.rely i w v → excepts i entry e s v)
    {moves : List (Move S)} (hallowed : ∀ e ∈ c.events moves, D.allowed e) :
    EndsAs D posts excepts (c.run moves) := by
  induction moves generalizing c with
  | nil => exact hends
  | cons move moves ih =>
      simp only [Config.events_cons, List.mem_append, Option.mem_toList] at hallowed
      have hfirst : ∀ e ∈ c.event move, D.allowed e := fun e he ↦ hallowed e (Or.inl he)
      have hnext : (c.apply move).Safe D := by
        cases hevent : c.event move with
        | some e => exact (hc.of_event hevent (hfirst e hevent)).2
        | none => exact hc.of_event_eq_none hD hevent
      exact ih hnext (hc.endsAs_apply hD hends hbody hpost hexcept hfirst) fun e he ↦
        hallowed e (Or.inr he)

end Result

end Config.Safe

/-! ## A task among others -/

/-- The task takes its turn, or the others change the world. -/
inductive Turn (S : System Op A σ ε)
  | own (choice : S.Choice)
  | others (change : S.World → S.World)

namespace Task

variable (i : ℕ) (entry : S.Entry)

/-- The operations of the task while the turns are taken. -/
def eventsAmong : List (Turn S) → Task Op A σ ε α → S.World → List (Event S)
  | .own choice :: turns, ask s op next, w =>
      match S.exec i choice op w with
      | some (answer, w') =>
          ⟨i, entry, s, op, answer, w, w'⟩ :: eventsAmong turns (next answer) w'
      | none => eventsAmong turns (ask s op next) w
  | .others change :: turns, t, w => eventsAmong turns t (change w)
  | _, _, _ => []

/-- The others change the world as `rely` says, and the task's own operations are `allowed`. -/
def Among (rely : S.World → S.World → Prop) (allowed : Event S → Prop) :
    List (Turn S) → Task Op A σ ε α → S.World → Prop
  | .own choice :: turns, ask s op next, w =>
      match S.exec i choice op w with
      | some (answer, w') =>
          allowed ⟨i, entry, s, op, answer, w, w'⟩ ∧ Among rely allowed turns (next answer) w'
      | none => Among rely allowed turns (ask s op next) w
  | .others change :: turns, t, w => rely w (change w) ∧ Among rely allowed turns t (change w)
  | _, _, _ => True

instance decidableAmong {rely : S.World → S.World → Prop} {allowed : Event S → Prop}
    [DecidableRel rely] [DecidablePred allowed] :
    ∀ (turns : List (Turn S)) (t : Task Op A σ ε α) (w : S.World),
      Decidable (t.Among i entry rely allowed turns w)
  | .own choice :: turns, ask s op next, w =>
      match h : S.exec i choice op w with
      | some (answer, w') =>
          have : Decidable ((next answer).Among i entry rely allowed turns w') :=
            decidableAmong turns (next answer) w'
          decidable_of_iff (allowed ⟨i, entry, s, op, answer, w, w'⟩ ∧
            (next answer).Among i entry rely allowed turns w') (by simp [Among, h])
      | none =>
          have : Decidable ((ask s op next).Among i entry rely allowed turns w) :=
            decidableAmong turns (ask s op next) w
          decidable_of_iff ((ask s op next).Among i entry rely allowed turns w)
            (by simp [Among, h])
  | .others change :: turns, t, w =>
      have : Decidable (t.Among i entry rely allowed turns (change w)) :=
        decidableAmong turns t (change w)
      decidable_of_iff (rely w (change w) ∧ t.Among i entry rely allowed turns (change w))
        (by cases t <;> rfl)
  | [], t, _ => isTrue (by cases t <;> trivial)
  | .own _ :: _, done .., _ => isTrue trivial
  | .own _ :: _, cut, _ => isTrue trivial

/-- Among others that do what it relies on, every operation of a safe task is good. -/
theorem Safe.good_of_among {D : Discipline S} {i : ℕ} {entry : S.Entry}
    {rely : S.World → S.World → Prop} {turns : List (Turn S)} {t : Task Op A σ ε α} {w : S.World}
    (hrely : ∀ change, .others change ∈ turns → ∀ w, D.inv w → rely w (change w) →
      D.rely i w (change w) ∧ D.inv (change w))
    (hinv : D.inv w) (h : t.Safe D i entry (fun _ _ _ ↦ True) (fun _ _ _ ↦ True) w)
    (hamong : t.Among i entry rely D.allowed turns w) :
    ∀ e ∈ t.eventsAmong i entry turns w, D.good e := by
  induction turns generalizing t w with
  | nil => cases t <;> simp [eventsAmong]
  | cons turn turns ih =>
      have hlater : ∀ change, .others change ∈ turns → ∀ w, D.inv w → rely w (change w) →
          D.rely i w (change w) ∧ D.inv (change w) := fun change hchange ↦
        hrely change (List.mem_cons_of_mem _ hchange)
      cases turn with
      | others change =>
          obtain ⟨hfirst, hamong⟩ : rely w (change w) ∧
              t.Among i entry rely D.allowed turns (change w) := by
            cases t <;> exact hamong
          obtain ⟨hchange, hinv'⟩ := hrely change List.mem_cons_self w hinv hfirst
          intro e he
          refine ih hlater hinv' (h.of_rely hchange) hamong e ?_
          cases t <;> exact he
      | own choice =>
          cases t with
          | done result s => simp [eventsAmong]
          | cut => simp [eventsAmong]
          | ask s op next =>
              rw [eventsAmong]
              rw [Among] at hamong
              cases hexec : S.exec i choice op w with
              | none =>
                  rw [hexec] at hamong
                  exact ih hlater hinv h hamong
              | some out =>
                  rw [hexec] at hamong
                  obtain ⟨hrespects, hnext⟩ := h w (D.rely_refl i w) hinv choice out.1 out.2 hexec
                    hamong.1
                  rw [List.forall_mem_cons]
                  exact ⟨hrespects.good, ih hlater hrespects.inv hnext hamong.2⟩

end Task

/-! ## A task that runs alone -/

namespace Task

/-- The task and the world after the operations that `choices` decide. -/
def drive (i : ℕ) : List S.Choice → Task Op A σ ε α → S.World → Task Op A σ ε α × S.World
  | choice :: choices, ask s op next, w =>
      match S.exec i choice op w with
      | some (answer, w') => drive i choices (next answer) w'
      | none => drive i choices (ask s op next) w
  | _, t, w => (t, w)

/-- Where every operation that `choices` decide is allowed, what is left is as safe as before. -/
theorem Safe.drive {D : Discipline S} {i : ℕ} {entry : S.Entry}
    {post : α → σ → S.World → Prop} {except : ε → σ → S.World → Prop}
    {t : Task Op A σ ε α} {w : S.World} (hinv : D.inv w) (h : t.Safe D i entry post except w)
    {choices : List S.Choice}
    (hallowed : ∀ e ∈ t.eventsAmong i entry (choices.map .own) w, D.allowed e) :
    (t.drive i choices w).1.Safe D i entry post except (t.drive i choices w).2 := by
  induction choices generalizing t w with
  | nil => cases t <;> exact h
  | cons choice choices ih =>
      cases t with
      | done result s => exact h
      | cut => exact h
      | ask s op next =>
          rw [Task.drive]
          rw [List.map_cons, eventsAmong] at hallowed
          cases hexec : S.exec i choice op w with
          | none =>
              rw [hexec] at hallowed
              exact ih hinv h hallowed
          | some out =>
              rw [hexec] at hallowed
              obtain ⟨hfirst, hrest⟩ := List.forall_mem_cons.mp hallowed
              obtain ⟨hrespects, hnext⟩ := h w (D.rely_refl i w) hinv choice out.1 out.2 hexec
                hfirst
              exact ih hrespects.inv hnext hrest

end Task

end Interleave
