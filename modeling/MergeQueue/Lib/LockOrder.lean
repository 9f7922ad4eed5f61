import MergeQueue.Lib.Interleave
import Mathlib.Data.Finset.Max
import Mathlib.Data.List.Nodup
import Mathlib.Logic.Hydra

/-!
# Locks that are taken in order

Every lock has a rank, and a task that holds locks waits only for locks of a larger rank.
Then tasks never wait for each other in a circle: whatever happened before, the tasks that
are under way can all be brought to their end.
-/

namespace Interleave

variable {Op : Type} {A : Op → Type} {σ ε α β τ L : Type}

/-! ## What an operation does with locks -/

/-- The locks `inside` an operation are taken and given back within it. -/
inductive LockUse (L : Type)
  | acquire (lock : L)
  | release (lock : L)
  | inside (locks : List L)

namespace LockUse

/-- The locks that have to be free. -/
def needs : LockUse L → List L
  | acquire lock => [lock]
  | release _ => []
  | inside locks => locks

/-- What the task holds afterwards, the lock taken last in front. -/
def after (held : List L) (succeeded : Bool) : LockUse L → List L
  | acquire lock => if succeeded then lock :: held else held
  | release _ => held.tail
  | inside _ => held

/-- The task waits only for locks above those it holds, and gives back the last one. -/
def Fits (rank : L → ℕ) (held : List L) : LockUse L → Prop
  | acquire lock => ∀ other ∈ held, rank other < rank lock
  | release lock => held.head? = some lock
  | inside locks => ∀ lock ∈ locks, ∀ other ∈ held, rank other < rank lock

theorem Fits.lt_of_mem {use : LockUse L} {rank : L → ℕ} {held : List L} (h : use.Fits rank held)
    {lock other : L} (hlock : lock ∈ use.needs) (hother : other ∈ held) :
    rank other < rank lock := by
  cases use with
  | acquire own =>
      cases List.mem_singleton.mp hlock
      exact h other hother
  | release own => cases hlock
  | inside locks => exact h lock hlock other hother

/-- Who holds which lock after an operation of the task number `thread`. -/
def change [DecidableEq L] (thread : ℕ) (succeeded : Bool) (held : List (L × ℕ)) :
    LockUse L → List (L × ℕ)
  | acquire lock => if succeeded then (lock, thread) :: held else held
  | release lock => held.filter (· ≠ (lock, thread))
  | inside _ => held

end LockUse

/-- The locks that the task number `thread` holds. -/
def locksOf (thread : ℕ) (held : List (L × ℕ)) : List L :=
  (held.filter fun entry ↦ entry.2 = thread).map Prod.fst

theorem mem_locksOf {thread : ℕ} {held : List (L × ℕ)} {lock : L} :
    lock ∈ locksOf thread held ↔ (lock, thread) ∈ held := by
  simp [locksOf]

theorem nodup_locksOf {thread : ℕ} {held : List (L × ℕ)} (h : (held.map Prod.fst).Nodup) :
    (locksOf thread held).Nodup :=
  h.sublist (List.filter_sublist.map _)

section Change

variable [DecidableEq L] {use : LockUse L} {thread : ℕ} {succeeded : Bool}
  {held : List (L × ℕ)}

theorem locksOf_change_of_ne {other : ℕ} (h : other ≠ thread) :
    locksOf other (use.change thread succeeded held) = locksOf other held := by
  cases use with
  | acquire lock =>
      cases succeeded with
      | true => simp [locksOf, LockUse.change, h.symm]
      | false => rfl
  | release lock =>
      unfold locksOf LockUse.change
      rw [List.filter_filter]
      congr 1
      refine List.filter_congr fun entry _ ↦ ?_
      by_cases hentry : entry.2 = other
      · have hne : entry ≠ (lock, thread) := fun heq ↦ h (hentry.symm.trans (by rw [heq]))
        simp [hentry, hne]
      · simp [hentry]
  | inside locks => rfl

/-- The task gives back a lock that it holds once. -/
theorem locksOf_change {rank : L → ℕ} (hunique : (held.map Prod.fst).Nodup)
    (hfits : use.Fits rank (locksOf thread held)) :
    locksOf thread (use.change thread succeeded held) =
      use.after (locksOf thread held) succeeded := by
  cases use with
  | acquire lock =>
      cases succeeded with
      | true => simp [locksOf, LockUse.change, LockUse.after]
      | false => rfl
  | release lock =>
      have hnodup : (locksOf thread held).Nodup := nodup_locksOf hunique
      have hfilter : locksOf thread (held.filter (· ≠ (lock, thread))) =
          (locksOf thread held).filter (· ≠ lock) := by
        unfold locksOf
        rw [List.filter_map, List.filter_filter, List.filter_filter]
        congr 1
        refine List.filter_congr fun entry _ ↦ ?_
        by_cases hentry : entry.2 = thread
        · simp [Prod.ext_iff, hentry]
        · simp [hentry]
      obtain ⟨rest, hrest⟩ : ∃ rest, locksOf thread held = lock :: rest := by
        cases hlocks : locksOf thread held with
        | nil =>
            rw [hlocks] at hfits
            cases hfits
        | cons first rest =>
            rw [hlocks] at hfits
            cases hfits
            exact ⟨rest, rfl⟩
      rw [hrest] at hnodup hfilter
      have hlock : lock ∉ rest := (List.nodup_cons.mp hnodup).1
      simp only [LockUse.change, LockUse.after, hfilter, hrest, List.tail_cons]
      rw [List.filter_cons_of_neg (by simp), List.filter_eq_self]
      intro other hother
      simpa using fun heq : other = lock ↦ hlock (heq ▸ hother)
  | inside locks => rfl

theorem mem_change {entry : L × ℕ} (h : entry ∈ use.change thread succeeded held) :
    entry ∈ held ∨ entry.2 = thread := by
  cases use with
  | acquire lock =>
      cases succeeded with
      | true =>
          rcases List.mem_cons.mp h with rfl | h
          · exact Or.inr rfl
          · exact Or.inl h
      | false => exact Or.inl h
  | release lock => exact Or.inl (List.mem_of_mem_filter h)
  | inside locks => exact Or.inl h

theorem nodup_change (hunique : (held.map Prod.fst).Nodup)
    (hfree : ∀ lock, use = .acquire lock → succeeded = true → lock ∉ held.map Prod.fst) :
    ((use.change thread succeeded held).map Prod.fst).Nodup := by
  cases use with
  | acquire lock =>
      cases succeeded with
      | true => exact List.nodup_cons.mpr ⟨hfree lock rfl rfl, hunique⟩
      | false => exact hunique
  | release lock => exact hunique.sublist (List.filter_sublist.map _)
  | inside locks => exact hunique

end Change

/-! ## Tasks that take locks in order -/

structure LockOrder (Op L : Type) where
  use : Op → LockUse L
  rank : L → ℕ

/-- What a task may ask for, what it is told, and what it knows of its own state. -/
structure Terms (Op : Type) (A : Op → Type) (σ ε : Type) where
  permits : Op → Prop
  contract : (op : Op) → Except ε (A op) → Prop
  inv : σ → Prop

namespace Task

variable {O : LockOrder Op L} {T : Terms Op A σ ε} {post mid : α → Prop} {goal goal' held : List L}

/-- A task that holds the locks `held` takes locks in order and ends with those of `goal`. -/
def Nests (O : LockOrder Op L) (T : Terms Op A σ ε) (post : α → Prop) (goal : List L) :
    List L → Task Op A σ ε α → Prop
  | held, done (.ok a) s => post a ∧ T.inv s ∧ held = goal
  | held, done (.error _) s => T.inv s ∧ held = goal
  | held, ask _ op next =>
      T.permits op ∧ (O.use op).Fits O.rank held ∧ ∀ answer, T.contract op answer →
        (next answer).Nests O T post goal ((O.use op).after held answer.isOk)
  | held, cut => held = []

theorem Nests.mono {t : Task Op A σ ε α} (h : t.Nests O T mid goal held)
    (hpost : ∀ a, mid a → post a) : t.Nests O T post goal held := by
  induction t generalizing held with
  | done result s =>
      cases result with
      | ok a => exact ⟨hpost a h.1, h.2⟩
      | error e => exact h
  | ask s op next ih =>
      obtain ⟨hpermits, hfits, hnext⟩ := h
      exact ⟨hpermits, hfits, fun answer hanswer ↦ ih answer (hnext answer hanswer)⟩
  | cut => exact h

theorem Nests.andThen {t : Task Op A σ ε α} {f : Except ε α → σ → Task Op A σ ε β}
    {post : β → Prop} (h : t.Nests O T mid goal held)
    (hok : ∀ a s, mid a → T.inv s → (f (.ok a) s).Nests O T post goal' goal)
    (herror : ∀ e s, T.inv s → (f (.error e) s).Nests O T post goal' goal) :
    (t.andThen f).Nests O T post goal' held := by
  induction t generalizing held with
  | done result s =>
      cases result with
      | ok a =>
          obtain ⟨hmid, hinv, rfl⟩ := h
          exact hok a s hmid hinv
      | error e =>
          obtain ⟨hinv, rfl⟩ := h
          exact herror e s hinv
  | ask s op next ih =>
      obtain ⟨hpermits, hfits, hnext⟩ := h
      exact ⟨hpermits, hfits, fun answer hanswer ↦ ih answer (hnext answer hanswer)⟩
  | cut => exact h

/-- Where locks are left aside, the task keeps to its terms. -/
theorem Nests.asks {t : Task Op A σ ε α} (h : t.Nests O T post goal held) :
    t.Asks T.contract (fun _ ↦ T.permits) (fun _ _ ↦ True) fun _ _ ↦ True := by
  induction t generalizing held with
  | done result s => cases result <;> trivial
  | ask s op next ih => exact ⟨h.1, fun answer hanswer ↦ ih answer (h.2.2 answer hanswer)⟩
  | cut => trivial

/-- The task awaits an answer. -/
def Waits : Task Op A σ ε α → Prop
  | ask .. => True
  | done .. | cut => False

theorem Nests.waits {t : Task Op A σ ε α} {lock : L} (h : t.Nests O T post [] held)
    (hlock : lock ∈ held) : t.Waits := by
  cases t with
  | done result s =>
      have hheld : held = [] := by
        cases result with
        | ok a => exact h.2.2
        | error e => exact h.2
      rw [hheld] at hlock
      cases hlock
  | ask s op next => trivial
  | cut =>
      cases h
      cases hlock

end Task

namespace Program

variable {O : LockOrder Op L} {T : Terms Op A σ ε}

/-- The program may run while its task holds locks of ranks below `k`, and gives back what
it takes. -/
def Nests (O : LockOrder Op L) (T : Terms Op A σ ε) (k : ℕ) (post : α → Prop)
    (p : Program Op A σ ε α) : Prop :=
  ∀ s held, T.inv s → (∀ lock ∈ held, O.rank lock < k) → (p s).Nests O T post held held

namespace Nests

variable {k : ℕ} {post mid : α → Prop} {p : Program Op A σ ε α}

theorem mono (h : p.Nests O T k mid) (hpost : ∀ a, mid a → post a) : p.Nests O T k post :=
  fun s held hs hheld ↦ (h s held hs hheld).mono hpost

theorem ret {a : α} (h : post a) : Nests O T k post (Pure.pure a : Program Op A σ ε α) :=
  fun _ _ hs _ ↦ ⟨h, hs, rfl⟩

theorem throw (e : ε) : Nests O T k post (MonadExcept.throw e : Program Op A σ ε α) :=
  fun _ _ hs _ ↦ ⟨hs, rfl⟩

theorem bind {f : α → Program Op A σ ε β} {post : β → Prop} (h : p.Nests O T k mid)
    (hf : ∀ a, mid a → (f a).Nests O T k post) : Nests O T k post (p >>= f) := by
  intro s held hs hheld
  exact (h s held hs hheld).andThen (fun a s' ha hs' ↦ hf a ha s' held hs' hheld)
    fun _ _ hs' ↦ ⟨hs', rfl⟩

theorem handle {h : ε → Program Op A σ ε α} (hp : p.Nests O T k post)
    (hh : ∀ e, (h e).Nests O T k post) : Nests O T k post (tryCatch p h) := by
  intro s held hs hheld
  exact (hp s held hs hheld).andThen (fun _ _ ha hs' ↦ ⟨ha, hs', rfl⟩)
    fun e s' hs' ↦ hh e s' held hs' hheld

/-- `q` gives back the locks `taken` above those of `held`. -/
theorem ensuring_task {q : Program Op A σ ε Unit} {s : σ} {held taken : List L}
    (hp : (p s).Nests O T post taken taken)
    (hq : ∀ s, T.inv s → (q s).Nests O T (fun _ ↦ True) held taken) :
    ((p.ensuring q) s).Nests O T post held taken := by
  refine hp.andThen (fun a s' ha hs' ↦ ?_) fun e s' hs' ↦ ?_
  · exact (hq s' hs').andThen (fun _ _ _ hs'' ↦ ⟨ha, hs'', rfl⟩) fun _ _ hs'' ↦ ⟨hs'', rfl⟩
  · exact (hq s' hs').andThen (fun _ _ _ hs'' ↦ ⟨hs'', rfl⟩) fun _ _ hs'' ↦ ⟨hs'', rfl⟩

theorem ensuring {q : Program Op A σ ε Unit} (hp : p.Nests O T k post)
    (hq : q.Nests O T k fun _ ↦ True) : Nests O T k post (p.ensuring q) :=
  fun s held hs hheld ↦
    ensuring_task (hp s held hs hheld) fun s' hs' ↦ hq s' held hs' hheld

theorem call {op : Op} {locks : List L} {post : A op → Prop} (hpermits : T.permits op)
    (huse : O.use op = .inside locks) (hlocks : ∀ lock ∈ locks, k ≤ O.rank lock)
    (hpost : ∀ a, T.contract op (.ok a) → post a) :
    Nests O T k post (Program.call op : Program Op A σ ε (A op)) := by
  intro s held hs hheld
  refine ⟨hpermits, ?_, fun answer hanswer ↦ ?_⟩
  · rw [huse]
    exact fun lock hlock other hother ↦ (hheld other hother).trans_le (hlocks lock hlock)
  · rw [huse]
    cases answer with
    | ok a => exact ⟨hpost a hanswer, hs, rfl⟩
    | error e => exact ⟨hs, rfl⟩

/-- A lock is taken, and `give` gives it back after `p`. -/
theorem bracket {op : Op} {lock : L} {give : Program Op A σ ε Unit} {k' : ℕ}
    (hpermits : T.permits op) (huse : O.use op = .acquire lock) (hk : k ≤ O.rank lock)
    (hk' : O.rank lock < k') (hp : p.Nests O T k' post)
    (hgive : ∀ s held, T.inv s → (give s).Nests O T (fun _ ↦ True) held (lock :: held)) :
    Nests O T k post
      ((Program.call op : Program Op A σ ε (A op)) >>= fun _ ↦ p.ensuring give) := by
  intro s held hs hheld
  refine ⟨hpermits, ?_, fun answer _ ↦ ?_⟩
  · rw [huse]
    exact fun other hother ↦ (hheld other hother).trans_le hk
  · rw [huse]
    cases answer with
    | error e => exact ⟨hs, rfl⟩
    | ok a =>
        refine ensuring_task (hp s (lock :: held) hs ?_) fun s' hs' ↦ hgive s' held hs'
        rw [List.forall_mem_cons]
        exact ⟨hk', fun other hother ↦ ((hheld other hother).trans_le hk).trans hk'⟩

/-- The lock that was taken last is given back. -/
theorem give_back {op : Op} {lock : L} {s : σ} {held : List L} (hpermits : T.permits op)
    (huse : O.use op = .release lock) (hs : T.inv s) :
    ((Program.call op : Program Op A σ ε (A op)) s).Nests O T (fun _ ↦ True) held
      (lock :: held) := by
  refine ⟨hpermits, ?_, fun answer _ ↦ ?_⟩
  · rw [huse]
    exact List.head?_cons
  · rw [huse]
    cases answer with
    | ok a => exact ⟨trivial, hs, rfl⟩
    | error e => exact ⟨hs, rfl⟩

theorem read : Nests O T k T.inv (Program.read : Program Op A σ ε σ) :=
  fun _ _ hs _ ↦ ⟨hs, hs, rfl⟩

theorem update {f : σ → σ} (h : ∀ s, T.inv s → T.inv (f s)) :
    Nests O T k (fun _ ↦ True) (Program.update f : Program Op A σ ε Unit) :=
  fun s _ hs _ ↦ ⟨trivial, h s hs, rfl⟩

/-- A loop that is followed for some rounds only may leave no lock behind. -/
theorem loop {body : τ → Program Op A σ ε (τ ⊕ α)} {known : τ → Prop}
    (h : ∀ t, known t → (body t).Nests O T 0 fun next ↦
      match next with
      | .inl t => known t
      | .inr a => post a)
    (rounds : ℕ) {t : τ} (ht : known t) : Nests O T 0 post (Program.loop body rounds t) := by
  induction rounds generalizing t with
  | zero =>
      intro s held hs hheld
      exact List.eq_nil_iff_forall_not_mem.mpr fun lock hlock ↦
        absurd (hheld lock hlock) (Nat.not_lt_zero _)
  | succ rounds ih =>
      refine bind (h t ht) fun next hnext ↦ ?_
      cases next with
      | inl t => exact ih hnext
      | inr a => exact ret hnext

theorem forEach {body : β → Program Op A σ ε Unit} {bs : List β}
    (h : ∀ b ∈ bs, (body b).Nests O T k fun _ ↦ True) :
    Nests O T k (fun _ ↦ True) (Program.forEach body bs) := by
  induction bs with
  | nil => exact ret trivial
  | cons b bs ih =>
      rw [List.forall_mem_cons] at h
      exact bind h.1 fun _ _ ↦ ih h.2

theorem tally {body : β → Program Op A σ ε Bool} {bs : List β}
    (h : ∀ b ∈ bs, (body b).Nests O T k fun _ ↦ True) :
    Nests O T k (fun _ ↦ True) (Program.tally body bs) := by
  induction bs with
  | nil => exact ret trivial
  | cons b bs ih =>
      rw [List.forall_mem_cons] at h
      exact bind h.1 fun _ _ ↦ bind (ih h.2) fun _ _ ↦ ret trivial

end Nests

end Program

/-! ## Systems of such tasks -/

variable {S : System Op A σ ε}

/-- The locks of a system, the terms on which its tasks run, and the choices with which
nothing fails. -/
structure LockPlan (S : System Op A σ ε) (L : Type) where
  order : LockOrder Op L
  terms : S.Entry → Terms Op A σ ε
  inv : S.World → Prop
  held : S.World → List (L × ℕ)
  patient : S.Choice → Prop

/-- Operations treat locks as the plan says, and one whose locks are free can happen. -/
structure LockPlan.Sound [DecidableEq L] (P : LockPlan S L) : Prop where
  body : ∀ entry, (S.body entry).Nests P.order (P.terms entry) 0 fun _ ↦ True
  init : ∀ entry, (P.terms entry).inv (S.init entry)
  exec : ∀ i entry choice op answer w w', P.inv w → (P.terms entry).permits op →
    S.exec i choice op w = some (answer, w') →
      P.inv w' ∧ (P.terms entry).contract op answer ∧
        P.held w' = (P.order.use op).change i answer.isOk (P.held w)
  free : ∀ i choice op answer w w' lock, S.exec i choice op w = some (answer, w') →
    P.order.use op = .acquire lock → answer.isOk = true → lock ∉ (P.held w).map Prod.fst
  enabled : ∀ i op w, (∀ lock ∈ (P.order.use op).needs, lock ∉ (P.held w).map Prod.fst) →
    ∃ choice, P.patient choice ∧ ∃ answer w', S.exec i choice op w = some (answer, w')
  arrive : ∀ entry w, P.inv w → P.inv (S.arrive entry w) ∧ P.held (S.arrive entry w) = P.held w
  crash : ∀ w, P.inv w → P.inv (S.crash w) ∧ P.held (S.crash w) = []

/-- Every task takes the locks it holds in order, and a lock has one holder at most. -/
structure Config.InOrder (P : LockPlan S L) (c : Config S) : Prop where
  inv : P.inv c.world
  nests : ∀ (i : ℕ) entry task, c.threads[i]? = some (entry, task) →
    task.Nests P.order (P.terms entry) (fun _ ↦ True) [] (locksOf i (P.held c.world))
  present : ∀ entry ∈ P.held c.world, entry.2 < c.threads.length
  unique : ((P.held c.world).map Prod.fst).Nodup

namespace Config.InOrder

variable {P : LockPlan S L} {c : Config S}

/-- The holder of a lock has not ended. -/
theorem holder_waits (hc : c.InOrder P) {lock : L} {i : ℕ} (h : (lock, i) ∈ P.held c.world) :
    ∃ entry task, c.threads[i]? = some (entry, task) ∧ task.Waits := by
  have hthread := List.getElem?_eq_getElem (hc.present _ h)
  exact ⟨_, _, hthread, (hc.nests _ _ _ hthread).waits (mem_locksOf.mpr h)⟩

/-- Some task waits that holds a lock as high as any, or no lock is held. -/
theorem exists_highest (hc : c.InOrder P) (hwaits : ∃ thread ∈ c.threads, thread.2.Waits) :
    ∃ (i : ℕ) (entry : S.Entry) (task : Task Op A σ ε Unit),
      c.threads[i]? = some (entry, task) ∧ task.Waits ∧ ∀ owned ∈ P.held c.world,
        ∃ lock ∈ locksOf i (P.held c.world), P.order.rank owned.1 ≤ P.order.rank lock := by
  by_cases hheld : P.held c.world = []
  · obtain ⟨⟨entry, task⟩, hmem, hwaits⟩ := hwaits
    obtain ⟨i, hthread⟩ := List.mem_iff_getElem?.mp hmem
    exact ⟨i, entry, task, hthread, hwaits, by simp [hheld]⟩
  · classical
    obtain ⟨⟨lock, i⟩, hlock, hmax⟩ := Finset.exists_max_image (P.held c.world).toFinset
      (fun owned ↦ P.order.rank owned.1) (List.toFinset_nonempty_iff _ |>.mpr hheld)
    simp only [List.mem_toFinset] at hlock hmax
    obtain ⟨entry, task, hthread, hwaits⟩ := hc.holder_waits hlock
    exact ⟨i, entry, task, hthread, hwaits, fun owned howned ↦
      ⟨lock, mem_locksOf.mpr hlock, hmax owned howned⟩⟩

variable [DecidableEq L]

theorem of_event (hP : P.Sound) (hc : c.InOrder P) {move : Move S} {e : Event S}
    (h : c.event move = some e) :
    ((P.terms e.entry).permits e.op ∧ (P.terms e.entry).contract e.op e.answer ∧
      P.inv e.before) ∧ (c.apply move).InOrder P := by
  obtain ⟨choice, next, hthread, hexec, hbefore, happly⟩ := Config.exists_of_event h
  obtain ⟨hpermits, hfits, hnext⟩ := hc.nests _ _ _ hthread
  obtain ⟨hinv, hcontract, hheld⟩ := hP.exec _ _ _ _ _ _ _ hc.inv hpermits hexec
  refine ⟨⟨hpermits, hcontract, hbefore ▸ hc.inv⟩, ?_⟩
  rw [happly]
  refine ⟨hinv, fun i entry task hi ↦ ?_, fun entry hentry ↦ ?_, ?_⟩
  · rw [hheld]
    rw [List.getElem?_set] at hi
    split at hi
    · next heq =>
        subst heq
        split at hi
        · cases hi
          rw [locksOf_change hc.unique hfits]
          exact hnext _ hcontract
        · cases hi
    · next hne =>
        rw [locksOf_change_of_ne (Ne.symm hne)]
        exact hc.nests i entry task hi
  · rw [List.length_set]
    rw [hheld] at hentry
    rcases mem_change hentry with hold | hnew
    · exact hc.present entry hold
    · rw [hnew]
      exact (List.getElem?_eq_some_iff.mp hthread).1
  · rw [hheld]
    exact nodup_change hc.unique fun lock huse hok ↦ hP.free _ _ _ _ _ _ lock hexec huse hok

theorem of_event_eq_none (hP : P.Sound) (hc : c.InOrder P) {move : Move S}
    (h : c.event move = none) : (c.apply move).InOrder P := by
  rcases Config.apply_of_event_eq_none h with ⟨entry, h⟩ | h | h <;> rw [h]
  · obtain ⟨hinv, hheld⟩ := hP.arrive entry c.world hc.inv
    refine ⟨hinv, fun i entry' task hi ↦ ?_, fun owner howner ↦ ?_, ?_⟩
    · rw [hheld]
      by_cases hlt : i < c.threads.length
      · rw [List.getElem?_append_left hlt] at hi
        exact hc.nests i entry' task hi
      · rw [List.getElem?_append_right (Nat.le_of_not_lt hlt)] at hi
        cases List.mem_singleton.mp (List.mem_of_getElem? hi)
        have hnone : locksOf i (P.held c.world) = [] :=
          List.eq_nil_iff_forall_not_mem.mpr fun lock hlock ↦
            hlt (hc.present _ (mem_locksOf.mp hlock))
        rw [hnone]
        exact hP.body entry _ [] (hP.init entry) (by simp)
    · rw [hheld] at howner
      simpa using (hc.present owner howner).trans_le (Nat.le_succ _)
    · rw [hheld]
      exact hc.unique
  · obtain ⟨hinv, hheld⟩ := hP.crash c.world hc.inv
    refine ⟨hinv, by simp, ?_, ?_⟩
    · simp [hheld]
    · simp [hheld]
  · exact hc

theorem apply (hP : P.Sound) (hc : c.InOrder P) (move : Move S) : (c.apply move).InOrder P := by
  cases hevent : c.event move with
  | some e => exact (hc.of_event hP hevent).2
  | none => exact hc.of_event_eq_none hP hevent

theorem run (hP : P.Sound) (hc : c.InOrder P) (moves : List (Move S)) :
    (c.run moves).InOrder P := by
  induction moves generalizing c with
  | nil => exact hc
  | cons move moves ih => exact ih (hc.apply hP move)

/-- Every operation of a run keeps to the terms of its task. -/
theorem terms_of_mem_events (hP : P.Sound) (hc : c.InOrder P) {moves : List (Move S)}
    {e : Event S} (he : e ∈ c.events moves) :
    (P.terms e.entry).permits e.op ∧ (P.terms e.entry).contract e.op e.answer ∧
      P.inv e.before := by
  induction moves generalizing c with
  | nil => cases he
  | cons move moves ih =>
      rw [events_cons, List.mem_append, Option.mem_toList] at he
      rcases he with he | he
      · exact (hc.of_event hP he).1
      · exact ih (hc.apply hP move) he

/-! ### The end of every task -/

/-- As long as a task waits, some task can go on: the holder of the highest lock waits for
no other. -/
theorem exists_step (hP : P.Sound) (hc : c.InOrder P)
    (hwaits : ∃ thread ∈ c.threads, thread.2.Waits) :
    ∃ i choice, P.patient choice ∧ ∃ e, c.event (.step i choice) = some e := by
  obtain ⟨i, entry, task, hthread, hwaits, hhighest⟩ := hc.exists_highest hwaits
  cases task with
  | done result s => cases hwaits
  | cut => cases hwaits
  | ask s op next =>
      obtain ⟨-, hfits, -⟩ := hc.nests _ _ _ hthread
      have hfree : ∀ lock ∈ (P.order.use op).needs, lock ∉ (P.held c.world).map Prod.fst := by
        intro lock hlock hmem
        obtain ⟨owned, howned, rfl⟩ := List.mem_map.mp hmem
        obtain ⟨own, hown, hle⟩ := hhighest owned howned
        exact absurd (hfits.lt_of_mem hlock hown) (Nat.not_lt.mpr hle)
      obtain ⟨choice, hpatient, answer, w', hexec⟩ := hP.enabled i op c.world hfree
      refine ⟨i, choice, hpatient, ?_⟩
      simp only [Config.event, hthread, hexec, Option.map_some]
      exact ⟨_, rfl⟩

end Config.InOrder

/-- What is left of a task after the answer to what it asked for. -/
def Task.Left (t' t : Task Op A σ ε α) : Prop :=
  ∃ s op next answer, t = .ask s op next ∧ t' = next answer

theorem Task.wellFounded_left :
    WellFounded (Task.Left : Task Op A σ ε α → Task Op A σ ε α → Prop) := by
  refine ⟨fun t ↦ ?_⟩
  induction t with
  | done result s =>
      refine ⟨_, fun t' h ↦ ?_⟩
      obtain ⟨_, _, _, _, h, -⟩ := h
      cases h
  | ask s op next ih =>
      refine ⟨_, fun t' h ↦ ?_⟩
      obtain ⟨_, _, _, answer, h, rfl⟩ := h
      cases h
      exact ih answer
  | cut =>
      refine ⟨_, fun t' h ↦ ?_⟩
      obtain ⟨_, _, _, _, h, -⟩ := h
      cases h

/-- The tasks of a configuration, in no order. -/
def Config.tasks (c : Config S) : Multiset (Task Op A σ ε Unit) := c.threads.map Prod.snd

theorem Config.cutExpand_of_event {c : Config S} {move : Move S} {e : Event S}
    (h : c.event move = some e) : Relation.CutExpand Task.Left (c.apply move).tasks c.tasks := by
  obtain ⟨choice, next, hthread, -, -, happly⟩ := Config.exists_of_event h
  refine ⟨{next e.answer}, .ask e.state e.op next, ?_, ?_⟩
  · rintro t ht
    rw [Multiset.mem_singleton.mp ht]
    exact ⟨_, _, _, _, rfl, rfl⟩
  · obtain ⟨hlt, hget⟩ := List.getElem?_eq_some_iff.mp hthread
    have hold := (List.getElem_cons_eraseIdx_perm hlt).map Prod.snd
    have hnew := (List.set_perm_cons_eraseIdx hlt (e.entry, next e.answer)).map Prod.snd
    rw [hget] at hold
    rw [happly]
    unfold Config.tasks
    rw [Multiset.coe_eq_coe.mpr hnew, ← Multiset.coe_eq_coe.mpr hold]
    simp only [List.map_cons, ← Multiset.cons_coe, ← Multiset.singleton_add]
    rw [add_right_comm, add_comm {next e.answer}, add_right_comm]

namespace Config.InOrder

variable [DecidableEq L] {P : LockPlan S L} {c : Config S}

/-- The tasks that are under way can all be brought to their end, and then no lock is held. -/
theorem exists_end (hP : P.Sound) (hc : c.InOrder P) :
    ∃ moves : List (Move S), (∀ move ∈ moves, ∃ i choice, P.patient choice ∧
        move = .step i choice) ∧
      (∀ thread ∈ (c.run moves).threads, ¬thread.2.Waits) ∧ P.held (c.run moves).world = [] := by
  induction htasks : c.tasks using Task.wellFounded_left.cutExpand.induction generalizing c with
  | _ tasks ih =>
      subst htasks
      by_cases hwaits : ∃ thread ∈ c.threads, thread.2.Waits
      · obtain ⟨i, choice, hpatient, e, hevent⟩ := hc.exists_step hP hwaits
        obtain ⟨moves, hmoves, hend⟩ :=
          ih _ (Config.cutExpand_of_event hevent) (hc.apply hP _) rfl
        refine ⟨.step i choice :: moves, ?_, hend⟩
        rw [List.forall_mem_cons]
        exact ⟨⟨i, choice, hpatient, rfl⟩, hmoves⟩
      · refine ⟨[], by simp, fun thread hthread h ↦ hwaits ⟨thread, hthread, h⟩, ?_⟩
        refine List.eq_nil_iff_forall_not_mem.mpr fun owned howned ↦ hwaits ?_
        obtain ⟨entry, task, hthread, h⟩ := hc.holder_waits howned
        exact ⟨_, List.mem_of_getElem? hthread, h⟩

end Config.InOrder

end Interleave
