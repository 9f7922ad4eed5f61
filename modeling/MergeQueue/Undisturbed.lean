import MergeQueue.Alone

/-!
# A task that nothing disturbs

No other task runs, but any await may fail, at any time and with any answer.
-/

namespace MergeQueue

open Interleave (Program Stage)
open Interleave.Program (Finishes Leaves Reaches Stays)

def undisturbed (settings : Settings) : Stage Op Op.Answer PyError World Choice where
  exec choice op w := World.exec settings.qm 0 choice op w
  fair _ := True

/-- No await fails, and GitLab gives the answers `gitlab`. -/
def answering (settings : Settings) (gitlab : (call : GitLabCall) → call.Answer) :
    Stage Op Op.Answer PyError World Choice :=
  (alone settings).restrict fun choice ↦ choice.gitlab = gitlab

theorem exists_answering (settings : Settings) (gitlab : (call : GitLabCall) → call.Answer) :
    ∃ choice, (answering settings gitlab).fair choice :=
  ⟨{ gitlab }, rfl, rfl⟩

theorem reaches_of_answering {α : Type} {settings : Settings} {p : Prog α} {s : Local} {w : World}
    {gitlab : (call : GitLabCall) → call.Answer} {goal : World → Prop}
    (h : p.Reaches (answering settings gitlab) s w goal) :
    p.Reaches (undisturbed settings) s w goal :=
  Interleave.Task.Reaches.of_fair h rfl fun _ _ ↦ trivial

theorem reaches_bind {α β : Type} {settings : Settings} {p : Prog α} {f : α → Prog β}
    {s : Local} {w : World} {gitlab : (call : GitLabCall) → call.Answer}
    {goal : World → Prop}
    (h : p.Finishes (alone settings) s [] w fun result s _ w ↦
      ∃ a, result = .ok a ∧ (f a).Reaches (answering settings gitlab) s w goal) :
    Reaches (answering settings gitlab) (p >>= f) s w goal := by
  refine Reaches.bind (exists_answering settings gitlab)
    (Interleave.Task.Finishes.mono (Interleave.Task.Finishes.restrict h _) ?_)
  rintro result s log w ⟨a, rfl, hreaches⟩
  exact hreaches

/-- GitLab gives its answer. -/
theorem reaches_gitlab {β : Type} {settings : Settings} {call : GitLabCall}
    {f : call.Answer → Prog β} {s : Local} {w : World}
    {gitlab : (call : GitLabCall) → call.Answer} {goal : World → Prop}
    (h : (f (gitlab call)).Reaches (answering settings gitlab) s
      { w with reports := w.reports ++ call.reports (gitlab call) } goal) :
    Reaches (answering settings gitlab) (Prog.gitlab call >>= f) s w goal :=
  Or.inr ⟨{ gitlab }, _, _, ⟨rfl, rfl⟩, rfl, h⟩

/-- A transaction takes the task to its goal. -/
theorem reaches_transact {settings : Settings} {op : QueueOp} {s : Local} {w : World}
    {gitlab : (call : GitLabCall) → call.Answer} {goal : World → Prop}
    (h : ∃ now a db', op.exec settings.qm now (fun i ↦ i) w.db = .ok (a, db') ∧
      goal { w with db := db' }) :
    (Prog.db op).Reaches (answering settings gitlab) s w goal := by
  obtain ⟨now, a, db', hexec, hgoal⟩ := h
  refine Or.inr ⟨{ gitlab, now }, .ok a, { w with db := db' }, ⟨rfl, rfl⟩, ?_,
    Interleave.Task.Reaches.here hgoal⟩
  simp only [answering, Interleave.Stage.restrict, alone, World.exec, World.transact, hexec,
    committed_ok]
  rfl

theorem reaches_db {β : Type} {settings : Settings} {op : QueueOp}
    {f : op.Answer → Prog β} {s : Local} {w : World}
    {gitlab : (call : GitLabCall) → call.Answer} {goal : World → Prop}
    (h : ∃ now a db', op.exec settings.qm now (fun i ↦ i) w.db = .ok (a, db') ∧
      goal { w with db := db' }) :
    Reaches (answering settings gitlab) (Prog.db op >>= f) s w goal :=
  Reaches.left (reaches_transact h)

/-- Started with the database `db`, the program keeps `keep` of the database, and where it
returns, `Q` holds. -/
def Prog.Within {α : Type} (settings : Settings) (keep : Database → Prop) (p : Prog α)
    (s : Local) (db : Database) (Q : α → Local → Database → Prop) : Prop :=
  ∀ w, w.db = db → p.Stays (undisturbed settings) s w (fun w ↦ keep w.db) fun result s w ↦
    ∀ a, result = .ok a → Q a s w.db

namespace Prog.Within

variable {settings : Settings} {keep : Database → Prop} {α β : Type} {p : Prog α} {s : Local}
  {db : Database} {Q : α → Local → Database → Prop}

theorem ret {a : α} (hdb : keep db) (h : Q a s db) :
    Within settings keep (Pure.pure a : Prog α) s db Q := by
  rintro w rfl
  refine Stays.ret hdb fun b hb ↦ ?_
  cases hb
  exact h

theorem throw {e : PyError} (hdb : keep db) :
    Within settings keep (MonadExcept.throw e : Prog α) s db Q := by
  rintro w rfl
  exact Stays.throw hdb fun b hb ↦ by cases hb

theorem bind {f : α → Prog β} {Q : β → Local → Database → Prop}
    {R : α → Local → Database → Prop} (h : p.Within settings keep s db R)
    (hf : ∀ a s db, keep db → R a s db → (f a).Within settings keep s db Q) :
    Within settings keep (p >>= f) s db Q := by
  intro w hw
  refine Stays.bind ((h w hw).weaken fun result s w hkeep hR ↦ ?_)
  cases result with
  | ok a => exact hf a s w.db hkeep (hR a rfl) w rfl
  | error e => exact fun b hb ↦ by cases hb

theorem handle {h : PyError → Prog α} (hp : p.Within settings keep s db Q)
    (hh : ∀ e s db, keep db → (h e).Within settings keep s db Q) :
    Within settings keep (tryCatch p h) s db Q := by
  intro w hw
  refine Stays.handle ((hp w hw).weaken fun result s w hkeep hQ ↦ ?_)
  cases result with
  | ok a => exact hQ
  | error e => exact hh e s w.db hkeep w rfl

theorem ensuring {q : Prog Unit} (hp : p.Within settings keep s db Q)
    (hq : ∀ s db, keep db → q.Within settings keep s db fun _ s' db' ↦ s' = s ∧ db' = db) :
    Within settings keep (p.ensuring q) s db Q := by
  intro w hw
  refine Stays.ensuring ((hp w hw).weaken fun result s w hkeep hQ ↦ ?_)
  refine (hq s w.db hkeep w rfl).weaken fun closing s' w' _ hclosed ↦ ?_
  cases closing with
  | ok u =>
      obtain ⟨rfl, hdb⟩ := hclosed u rfl
      simpa only [hdb] using hQ
  | error e => exact fun b hb ↦ by cases hb

theorem read {Q : Local → Local → Database → Prop} (hdb : keep db) (h : Q s s db) :
    Within settings keep (Program.read : Prog Local) s db Q := by
  rintro w rfl
  refine Stays.read hdb fun b hb ↦ ?_
  cases hb
  exact h

theorem update {f : Local → Local} {Q : Unit → Local → Database → Prop} (hdb : keep db)
    (h : Q () (f s) db) :
    Within settings keep (Program.update f : Prog Unit) s db Q := by
  rintro w rfl
  exact Stays.update hdb fun _ _ ↦ h

/-- An operation that is no transaction leaves the database as it was. -/
theorem await {op : Op} {Q : op.Answer → Local → Database → Prop} (hop : ∀ q, op ≠ .db q)
    (hdb : keep db) (h : ∀ a, Q a s db) :
    Within settings keep (Prog.await op) s db Q := by
  rintro w rfl
  refine Stays.call hdb fun choice answer w' _ hexec ↦ ?_
  have hsame : w'.db = w.db := World.exec_db_eq hexec hop
  rw [hsame]
  exact ⟨hdb, fun a _ ↦ h a⟩

/-- A transaction happens as a whole or not at all. -/
theorem transact {op : QueueOp} {Q : op.Answer → Local → Database → Prop} (hdb : keep db)
    (h : ∀ now tokens a db', op.exec settings.qm now tokens db = .ok (a, db') →
      keep db' ∧ Q a s db') :
    Within settings keep (Prog.db op) s db Q := by
  rintro w rfl
  refine Stays.call hdb fun choice answer w' _ hexec ↦ ?_
  rcases (@World.exec_db settings.qm 0 choice w w' op answer hexec).2.2 with
    ⟨hsame, e, rfl⟩ | ⟨a, hcommit, hanswer⟩
  · rw [hsame]
    exact ⟨hdb, fun a ha ↦ by cases ha⟩
  · obtain ⟨hkeep, hQ⟩ := h _ _ _ _ hcommit
    refine ⟨hkeep, fun b hb ↦ ?_⟩
    rcases hanswer with rfl | ⟨e, rfl⟩
    · cases hb
      exact hQ
    · cases hb

/-- What a program of operations that keep `keep` does. -/
theorem of_leaves {permits : Op → Prop} (h : p.Leaves permits)
    (hkeeps : ∀ q now tokens db a db', permits (.db q) → keep db →
      q.exec settings.qm now tokens db = .ok (a, db') → keep db')
    (hdb : keep db) : Within settings keep p s db fun _ s' db' ↦ s' = s ∧ keep db' := by
  rintro w rfl
  have hstays : p.Stays (undisturbed settings) s w (fun w ↦ keep w.db) fun _ s' _ ↦ s' = s := by
    refine Stays.of_leaves h (fun op choice w answer w' hop _ hexec hkeep ↦ ?_) hdb
    rcases @World.exec_db_cases settings.qm 0 choice w w' op answer hexec with
      hsame | ⟨q, a, rfl, hcommit⟩
    · rwa [hsame]
    · exact hkeeps q _ _ _ _ _ hop hkeep hcommit
  exact hstays.weaken fun result s' w' hkeep hs a _ ↦ ⟨hs, hkeep⟩

theorem weaken {Q' : α → Local → Database → Prop} (h : p.Within settings keep s db Q)
    (hQ : ∀ a s db, keep db → Q a s db → Q' a s db) :
    p.Within settings keep s db Q' :=
  fun w hw ↦ (h w hw).weaken fun _ s w hkeep hp a ha ↦ hQ a s w.db hkeep (hp a ha)

/-- The lock is nothing to the database. -/
theorem withLock {lock : LockName} {body : Prog α} (hdb : keep db)
    (h : body.Within settings keep s db Q) :
    Within settings keep (Prog.withLock lock body) s db Q := by
  refine bind (R := fun _ s' db' ↦ s' = s ∧ db' = db) (await (fun q hq ↦ by cases hq) hdb
    fun _ ↦ ⟨rfl, rfl⟩) ?_
  rintro _ _ _ hkeep ⟨rfl, rfl⟩
  refine ensuring h fun s db hdb ↦ ?_
  exact await (fun q hq ↦ by cases hq) hdb fun _ ↦ ⟨rfl, rfl⟩

end Prog.Within

end MergeQueue
