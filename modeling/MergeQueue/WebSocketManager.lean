import MergeQueue.Lib.RelyGuarantee
import MergeQueue.Lib.Json
import Mathlib.Data.Finset.Basic
import Mathlib.Data.Finset.Dedup

/-!
# The connections of the dashboards

A dashboard connects to one project with a token.  The manager keeps the accepted sockets in
one set and in a set for each project; a broadcast sends to the sockets that it finds in one
of them when it starts, and removes afterwards those to which it could not send.
-/

namespace MergeQueue

open Interleave (Program Task System Config Event Move Discipline)

inductive SocketError
  | tokenExpired
  | invalidToken
  | failed (message : String)
  | cancelled
  deriving DecidableEq, Repr

/-- `except Exception` does not catch a cancellation. -/
def SocketError.isException : SocketError → Bool
  | cancelled => false
  | _ => true

/-! ## Tokens -/

/-- The claims of a decoded token. -/
abbrev Claims := List (String × Json)

/-- The value where it is an `int`, as a `bool` is. -/
def Json.asInt : Json → Option ℤ
  | .num n => some n
  | .bool b => some (if b then 1 else 0)
  | _ => none

def getAuthorizedProjectIds (payload : Claims) : List ℤ :=
  match payload.lookup "project_ids" with
  | some (.arr ids) => ids.filterMap Json.asInt
  | _ => ((payload.lookup "project_id").bind Json.asInt).toList

/-! ## The two registries -/

structure WebSocketManager where
  connections : Finset ℕ := ∅
  projectConnections : ℤ → Option (Finset ℕ) := fun _ ↦ none

namespace WebSocketManager

variable (m : WebSocketManager)

/-- The sockets that a broadcast starts with. -/
def targets : Option ℤ → Finset ℕ
  | none => m.connections
  | some project => (m.projectConnections project).getD ∅

/-- What `connect` records of a socket that it has accepted. -/
def register (websocket : ℕ) (project : Option ℤ) : WebSocketManager where
  connections := insert websocket m.connections
  projectConnections :=
    match project with
    | none => m.projectConnections
    | some project =>
        Function.update m.projectConnections project
          (some (insert websocket ((m.projectConnections project).getD ∅)))

def disconnect (websocket : ℕ) : WebSocketManager where
  connections := m.connections.erase websocket
  projectConnections project :=
    (m.projectConnections project).bind fun sockets ↦
      if sockets.erase websocket = ∅ then none else some (sockets.erase websocket)

/-- The set of a project has sockets, all of them connected. -/
def InStep : Prop :=
  ∀ project sockets, m.projectConnections project = some sockets →
    sockets.Nonempty ∧ sockets ⊆ m.connections

variable {m}

theorem mem_targets_some {websocket : ℕ} {project : ℤ} :
    websocket ∈ m.targets (some project) ↔
      ∃ sockets, m.projectConnections project = some sockets ∧ websocket ∈ sockets := by
  cases h : m.projectConnections project with
  | none => simp [targets, h]
  | some sockets => simp [targets, h]

theorem InStep.targets_subset (h : m.InStep) (project : Option ℤ) :
    m.targets project ⊆ m.connections := by
  cases project with
  | none => exact Finset.Subset.refl _
  | some project =>
      intro websocket hmem
      obtain ⟨sockets, hsockets, hin⟩ := mem_targets_some.mp hmem
      exact (h project sockets hsockets).2 hin

theorem InStep.register (h : m.InStep) (websocket : ℕ) (project : Option ℤ) :
    (m.register websocket project).InStep := by
  intro p sockets hsockets
  cases project with
  | none =>
      obtain ⟨hne, hsub⟩ := h p sockets hsockets
      exact ⟨hne, hsub.trans (Finset.subset_insert _ _)⟩
  | some q =>
      simp only [WebSocketManager.register] at hsockets ⊢
      by_cases hp : p = q
      · subst hp
        rw [Function.update_self] at hsockets
        cases hsockets
        exact ⟨Finset.insert_nonempty _ _,
          Finset.insert_subset_insert _ (h.targets_subset (some p))⟩
      · rw [Function.update_of_ne hp] at hsockets
        obtain ⟨hne, hsub⟩ := h p sockets hsockets
        exact ⟨hne, hsub.trans (Finset.subset_insert _ _)⟩

theorem disconnect_eq_some {websocket : ℕ} {project : ℤ} {sockets : Finset ℕ}
    (h : (m.disconnect websocket).projectConnections project = some sockets) :
    ∃ before, m.projectConnections project = some before ∧
      sockets = before.erase websocket ∧ sockets ≠ ∅ := by
  obtain ⟨before, hbefore, h⟩ := Option.bind_eq_some_iff.mp h
  split_ifs at h with hempty
  cases h
  exact ⟨before, hbefore, rfl, hempty⟩

theorem InStep.disconnect (h : m.InStep) (websocket : ℕ) : (m.disconnect websocket).InStep := by
  intro project sockets hsockets
  obtain ⟨before, hbefore, rfl, hne⟩ := disconnect_eq_some hsockets
  exact ⟨Finset.nonempty_iff_ne_empty.mpr hne,
    Finset.erase_subset_erase _ (h project before hbefore).2⟩

theorem mem_targets_register {websocket other : ℕ} {project : Option ℤ} {p : ℤ}
    (h : other ∈ (m.register websocket project).targets (some p)) :
    other ∈ m.targets (some p) ∨ (other = websocket ∧ project = some p) := by
  obtain ⟨sockets, hsockets, hin⟩ := mem_targets_some.mp h
  cases project with
  | none => exact Or.inl (mem_targets_some.mpr ⟨sockets, hsockets, hin⟩)
  | some q =>
      simp only [register] at hsockets
      by_cases hp : p = q
      · subst hp
        rw [Function.update_self] at hsockets
        cases hsockets
        exact (Finset.mem_insert.mp hin).symm.imp_right fun heq ↦ ⟨heq, rfl⟩
      · rw [Function.update_of_ne hp] at hsockets
        exact Or.inl (mem_targets_some.mpr ⟨sockets, hsockets, hin⟩)

theorem mem_targets_disconnect {websocket other : ℕ} {p : ℤ}
    (h : other ∈ (m.disconnect websocket).targets (some p)) : other ∈ m.targets (some p) := by
  obtain ⟨sockets, hsockets, hin⟩ := mem_targets_some.mp h
  obtain ⟨before, hbefore, rfl, -⟩ := disconnect_eq_some hsockets
  exact mem_targets_some.mpr ⟨before, hbefore, Finset.mem_of_mem_erase hin⟩

end WebSocketManager

/-! ## The coroutines -/

/-- An await of a socket, or a stretch of a coroutine between its awaits. -/
inductive SocketOp
  | decodeToken (websocket : ℕ) (token : String)
  | close (websocket : ℕ) (reason : String)
  | accept (websocket : ℕ)
  | register (websocket : ℕ) (project : Option ℤ)
  | targets (project : Option ℤ)
  | sendJson (websocket : ℕ) (message : String)
  | disconnect (websocket : ℕ)
  deriving DecidableEq

abbrev SocketOp.Answer : SocketOp → Type
  | decodeToken .. => Claims
  | targets _ => List ℕ
  | close .. | accept _ | register .. | sendJson .. | disconnect _ => Unit

abbrev SocketProg (α : Type) := Program SocketOp SocketOp.Answer Unit SocketError α

namespace SocketProg

def await (op : SocketOp) : SocketProg op.Answer := Program.call op

end SocketProg

namespace WebSocketManager

open SocketProg (await)

/-- Closes a socket that is not accepted. -/
def reject (websocket : ℕ) (reason : String) : SocketProg Bool := do
  await (.close websocket reason)
  return false

/-- `connect` with a token: the checks, the acceptance and the registration. -/
def accepting (websocket : ℕ) (token : String) (project : Option ℤ) : SocketProg Bool := do
  let payload : Claims ← await (.decodeToken websocket token)
  if project.any fun id ↦ !(getAuthorizedProjectIds payload).contains id then
    reject websocket "Project access denied"
  else do
    await (.accept websocket)
    await (.register websocket project)
    return true

def connect (websocket : ℕ) (token : Option String) (project : Option ℤ) : SocketProg Bool :=
  match token.filter (· ≠ "") with
  | none => reject websocket "Missing token"
  | some token =>
      tryCatch (accepting websocket token project) fun e ↦
        match e with
        | .tokenExpired => reject websocket "Token expired"
        | .invalidToken => reject websocket "Invalid token"
        | e => throw e

/-- Sends to each socket, and gives those to which it could not send. -/
def sendAll (message : String) : List ℕ → SocketProg (List ℕ)
  | [] => pure []
  | websocket :: rest => do
      let failed : Bool ←
        tryCatch (await (.sendJson websocket message) >>= fun _ ↦ pure false) fun e ↦
          if e.isException then pure true else throw e
      let disconnected ← sendAll message rest
      return if failed then websocket :: disconnected else disconnected

def broadcast (message : String) (project : Option ℤ) : SocketProg Unit := do
  let sockets : List ℕ ← await (.targets project)
  let disconnected ← sendAll message sockets
  Program.forEach (fun websocket : ℕ ↦ await (.disconnect websocket)) disconnected

end WebSocketManager

/-! ## The world -/

/-- The manager, and beside it the tokens that `decode_token` accepted, the sockets to which a
broadcast has still to send and those to which it could not and has still to remove.  `gone` are
the sockets that were disconnected and `dropped` those to which a send failed, where no `connect`
has registered them since. -/
structure SocketWorld where
  manager : WebSocketManager := {}
  presented : List (ℕ × String × Claims) := []
  due : ℕ → List ℕ := fun _ ↦ []
  failed : ℕ → List ℕ := fun _ ↦ []
  gone : Finset ℕ := ∅
  dropped : Finset ℕ := ∅

structure SocketChoice where
  payload : Except SocketError Claims := .error .invalidToken
  order : List ℕ := []
  fault : Option SocketError := none

def SocketChoice.outcome (choice : SocketChoice) : Except SocketError Unit :=
  choice.fault.elim (.ok ()) .error

namespace SocketWorld

def present (websocket : ℕ) (token : String) (payload : Except SocketError Claims)
    (w : SocketWorld) : SocketWorld :=
  match payload with
  | .ok payload => { w with presented := (websocket, token, payload) :: w.presented }
  | .error _ => w

def sent (thread websocket : ℕ) (fault : Option SocketError) (w : SocketWorld) : SocketWorld :=
  let left := Function.update w.due thread ((w.due thread).erase websocket)
  match fault with
  | none => { w with due := left }
  | some _ =>
      { w with
        due := left
        failed := Function.update w.failed thread (websocket :: w.failed thread)
        dropped := insert websocket w.dropped }

/-- What an operation of the task number `thread` does.  A set is gone through in any order. -/
def exec (thread : ℕ) (choice : SocketChoice) :
    (op : SocketOp) → SocketWorld → Option (Except SocketError op.Answer × SocketWorld)
  | .decodeToken websocket token, w =>
      some (choice.payload, w.present websocket token choice.payload)
  | .close .., w | .accept _, w => some (choice.outcome, w)
  | .register websocket project, w =>
      some (.ok (),
        { w with
          manager := w.manager.register websocket project
          gone := w.gone.erase websocket
          dropped := w.dropped.erase websocket })
  | .targets project, w =>
      if choice.order.Nodup ∧ choice.order.toFinset = w.manager.targets project then
        some (.ok choice.order,
          { w with
            due := Function.update w.due thread choice.order
            failed := Function.update w.failed thread [] })
      else none
  | .sendJson websocket _, w => some (choice.outcome, w.sent thread websocket choice.fault)
  | .disconnect websocket, w =>
      some (.ok (),
        { w with
          manager := w.manager.disconnect websocket
          failed := Function.update w.failed thread ((w.failed thread).filter (· ≠ websocket))
          gone := insert websocket w.gone })

end SocketWorld

inductive SocketTask
  | connect (websocket : ℕ) (token : Option String) (project : Option ℤ)
  | disconnect (websocket : ℕ)
  | broadcast (message : String) (project : Option ℤ)
  deriving DecidableEq

def SocketTask.body : SocketTask → SocketProg Unit
  | connect websocket token project => do
      let _ ← WebSocketManager.connect websocket token project
  | disconnect websocket => SocketProg.await (.disconnect websocket)
  | broadcast message project => WebSocketManager.broadcast message project

def socketSystem : System SocketOp SocketOp.Answer Unit SocketError where
  World := SocketWorld
  Choice := SocketChoice
  Entry := SocketTask
  exec := SocketWorld.exec
  body := SocketTask.body
  init := fun _ ↦ ()
  arrive := fun _ w ↦ w
  crash := fun _ ↦ {}

/-! ## What stays inside a project -/

/-- A `connect` of the socket presented a token that was accepted and allows the project. -/
def SocketWorld.Granted (w : SocketWorld) (websocket : ℕ) (project : ℤ) : Prop :=
  ∃ token payload, (websocket, token, payload) ∈ w.presented ∧
    project ∈ getAuthorizedProjectIds payload

/-- Tokens are presented by the `connect` of the socket.  A broadcast starts with all sockets of
its project and none that was disconnected, and sends only to those it started with, which were
granted the project. -/
def Contained (e : Event socketSystem) : Prop :=
  match e.op with
  | .decodeToken websocket token => ∃ project, e.entry = .connect websocket (some token) project
  | .targets project =>
      (∃ message, e.entry = .broadcast message project) ∧
        (SocketWorld.due e.after e.thread).toFinset =
          (SocketWorld.manager e.before).targets project ∧
        ∀ websocket ∈ (SocketWorld.manager e.before).targets project,
          websocket ∉ SocketWorld.gone e.before
  | .sendJson websocket message =>
      ∃ project, e.entry = .broadcast message project ∧
        websocket ∈ SocketWorld.due e.before e.thread ∧
        ∀ id ∈ project, SocketWorld.Granted e.before websocket id
  | _ => True

/-- A broadcast that ends has sent to every socket that it started with and removed those to which
it could not send, unless it was cancelled. -/
def Ended (w : SocketWorld) (thread : ℕ) : SocketTask → Except SocketError Unit → Prop
  | .broadcast .., .ok () => w.due thread = [] ∧ w.failed thread = []
  | .broadcast .., .error e => e.isException = false
  | _, _ => True

structure SocketWorld.Sound (w : SocketWorld) : Prop where
  inStep : w.manager.InStep
  granted : ∀ project, ∀ websocket ∈ w.manager.targets (some project),
    w.Granted websocket project
  gone : ∀ websocket ∈ w.gone, websocket ∉ w.manager.connections

/-- What a task relies on: tokens stay presented, and nobody else does its sending. -/
structure SocketWorld.Later (i : ℕ) (w w' : SocketWorld) : Prop where
  presented : w.presented ⊆ w'.presented
  due : w'.due i = w.due i
  failed : w'.failed i = w.failed i

def socketDiscipline : Discipline socketSystem where
  inv := SocketWorld.Sound
  rely := SocketWorld.Later
  good := Contained
  rely_refl := fun _ _ ↦ ⟨List.Subset.refl _, rfl, rfl⟩
  rely_trans := fun _ _ _ _ h h' ↦
    ⟨List.Subset.trans h.presented h'.presented, h'.due.trans h.due, h'.failed.trans h.failed⟩

/-! ## The operations -/

namespace SocketWorld

variable {w w' : SocketWorld} {thread websocket : ℕ} {project : Option ℤ} {p : ℤ}

theorem Granted.mono (h : w.Granted websocket p) (hsub : w.presented ⊆ w'.presented) :
    w'.Granted websocket p := by
  obtain ⟨token, payload, hmem, hp⟩ := h
  exact ⟨token, payload, hsub hmem, hp⟩

theorem Sound.of_eq (h : w.Sound) (hmanager : w'.manager = w.manager) (hgone : w'.gone = w.gone)
    (hsub : w.presented ⊆ w'.presented) : w'.Sound where
  inStep := hmanager ▸ h.inStep
  granted p websocket hmem := by
    rw [hmanager] at hmem
    exact (h.granted p websocket hmem).mono hsub
  gone websocket hmem := by
    rw [hgone] at hmem
    exact hmanager ▸ h.gone websocket hmem

theorem Sound.register (h : w.Sound) (hgranted : ∀ id ∈ project, w.Granted websocket id)
    (hmanager : w'.manager = w.manager.register websocket project)
    (hpresented : w'.presented = w.presented) (hgone : w'.gone = w.gone.erase websocket) :
    w'.Sound where
  inStep := hmanager ▸ h.inStep.register websocket project
  granted p other hmem := by
    have hsub : w.presented ⊆ w'.presented := hpresented ▸ List.Subset.refl _
    rw [hmanager] at hmem
    rcases WebSocketManager.mem_targets_register hmem with hmem | ⟨rfl, rfl⟩
    · exact (h.granted p other hmem).mono hsub
    · exact (hgranted p rfl).mono hsub
  gone other hmem := by
    rw [hgone] at hmem
    obtain ⟨hne, hmem⟩ := Finset.mem_erase.mp hmem
    rw [hmanager]
    intro hin
    rcases Finset.mem_insert.mp hin with heq | hin
    · exact hne heq
    · exact h.gone other hmem hin

theorem Sound.disconnect (h : w.Sound)
    (hmanager : w'.manager = w.manager.disconnect websocket)
    (hpresented : w'.presented = w.presented) (hgone : w'.gone = insert websocket w.gone) :
    w'.Sound where
  inStep := hmanager ▸ h.inStep.disconnect websocket
  granted p other hmem := by
    rw [hmanager] at hmem
    exact (h.granted p other (WebSocketManager.mem_targets_disconnect hmem)).mono
      (hpresented ▸ List.Subset.refl _)
  gone other hmem := by
    rw [hgone] at hmem
    rw [hmanager]
    intro hin
    obtain ⟨hne, hin⟩ := Finset.mem_erase.mp hin
    rcases Finset.mem_insert.mp hmem with heq | hmem
    · exact hne heq
    · exact h.gone other hmem hin

end SocketWorld

namespace SocketProg

open SocketWorld
open Interleave.Program (Safe)

variable {i websocket : ℕ} {entry : SocketTask} {message token : String} {project : Option ℤ}

/-- What a `connect` knows of its token. -/
def Allowed (websocket : ℕ) (project : Option ℤ) (_ : Unit) (w : SocketWorld) : Prop :=
  ∀ id ∈ project, w.Granted websocket id

theorem Allowed.later {s : Unit} {w v : SocketWorld} (h : Allowed websocket project s w)
    (hv : Later i w v) : Allowed websocket project s v :=
  fun id hid ↦ (h id hid).mono hv.presented

theorem safe_decodeToken :
    Safe socketDiscipline i (.connect websocket (some token) project) (fun _ _ ↦ True)
      (await (.decodeToken websocket token))
      (fun (payload : Claims) _ (w : SocketWorld) ↦
        ∀ id ∈ getAuthorizedProjectIds payload, w.Granted websocket id)
      fun _ _ _ ↦ True := by
  refine Safe.call fun s w v _ _ hsound choice answer v' hexec _ ↦ ?_
  cases hexec
  cases hpayload : choice.payload with
  | error e => exact ⟨⟨hsound, fun j _ ↦ socketDiscipline.rely_refl j v, project, rfl⟩, trivial⟩
  | ok payload =>
      have hsub : SocketWorld.presented v ⊆ (websocket, token, payload) :: v.presented :=
        List.subset_cons_self _ _
      refine ⟨⟨Sound.of_eq hsound rfl rfl hsub, fun j _ ↦ ⟨hsub, rfl, rfl⟩, project, rfl⟩, ?_⟩
      exact fun id hid ↦ ⟨token, payload, List.mem_cons_self, hid⟩

theorem safe_close (reason : String) :
    Safe socketDiscipline i entry (fun _ _ ↦ True) (await (.close websocket reason))
      (fun _ _ _ ↦ True) fun _ _ _ ↦ True := by
  refine Safe.call fun s w v _ _ hsound choice answer v' hexec _ ↦ ?_
  cases hexec
  refine ⟨⟨hsound, fun j _ ↦ socketDiscipline.rely_refl j v, trivial⟩, ?_⟩
  cases choice.outcome <;> trivial

theorem safe_accept :
    Safe socketDiscipline i entry (Allowed websocket project) (await (.accept websocket))
      (fun _ ↦ Allowed websocket project) fun _ _ _ ↦ True := by
  refine Safe.call fun s w v hw hv hsound choice answer v' hexec _ ↦ ?_
  cases hexec
  refine ⟨⟨hsound, fun j _ ↦ socketDiscipline.rely_refl j v, trivial⟩, ?_⟩
  cases choice.outcome with
  | ok _ => exact hw.later hv
  | error _ => trivial

theorem safe_register :
    Safe socketDiscipline i entry (Allowed websocket project)
      (await (.register websocket project)) (fun _ _ _ ↦ True) fun _ _ _ ↦ True := by
  refine Safe.call fun s w v hw hv hsound choice answer v' hexec _ ↦ ?_
  cases hexec
  refine ⟨⟨?_, fun j _ ↦ ⟨List.Subset.refl _, rfl, rfl⟩, trivial⟩, trivial⟩
  exact Sound.register hsound (hw.later hv) rfl rfl rfl

theorem safe_disconnect :
    Safe socketDiscipline i entry (fun _ _ ↦ True) (await (.disconnect websocket))
      (fun _ _ _ ↦ True) fun _ _ _ ↦ True := by
  refine Safe.call fun s w v _ _ hsound choice answer v' hexec _ ↦ ?_
  cases hexec
  refine ⟨⟨?_, fun j hj ↦ ⟨List.Subset.refl _, rfl, Function.update_of_ne hj _ _⟩, trivial⟩,
    trivial⟩
  exact Sound.disconnect hsound rfl rfl rfl

theorem safe_reject (reason : String) :
    Safe socketDiscipline i entry (fun _ _ ↦ True) (WebSocketManager.reject websocket reason)
      (fun _ _ _ ↦ True) fun _ _ _ ↦ True :=
  (safe_close reason).bind fun _ ↦ Safe.ret fun _ _ h ↦ h

theorem safe_accepting :
    Safe socketDiscipline i (.connect websocket (some token) project) (fun _ _ ↦ True)
      (WebSocketManager.accepting websocket token project) (fun _ _ _ ↦ True) fun _ _ _ ↦ True := by
  refine safe_decodeToken.bind fun payload ↦ ?_
  split_ifs with hdenied
  · exact (safe_reject _).mono (fun _ _ _ ↦ trivial) (fun _ _ _ h ↦ h) fun _ _ _ h ↦ h
  · have hallowed : ∀ (s : Unit) (w : socketSystem.World),
        (∀ id ∈ getAuthorizedProjectIds payload, Granted w websocket id) →
          Allowed websocket project s w := by
      intro s w h id hid
      refine h id ?_
      rw [Option.mem_def.mp hid] at hdenied
      simpa using hdenied
    refine Safe.mono (Safe.bind safe_accept fun _ ↦ safe_register.bind fun _ ↦
      Safe.ret fun _ _ h ↦ h) hallowed (fun _ _ _ h ↦ h) fun _ _ _ h ↦ h

theorem safe_connect (token : Option String) :
    Safe socketDiscipline i (.connect websocket token project) (fun _ _ ↦ True)
      (WebSocketManager.connect websocket token project) (fun _ _ _ ↦ True)
      fun _ _ _ ↦ True := by
  unfold WebSocketManager.connect
  cases htoken : token.filter (· ≠ "") with
  | none => exact safe_reject _
  | some token' =>
      obtain ⟨rfl, -⟩ := Option.filter_eq_some_iff.mp htoken
      refine safe_accepting.handle fun e ↦ ?_
      cases e with
      | tokenExpired => exact safe_reject _
      | invalidToken => exact safe_reject _
      | failed message => exact Safe.throw fun _ _ h ↦ h
      | cancelled => exact Safe.throw fun _ _ h ↦ h

/-! ### A broadcast -/

/-- The task has still to send to `due`, and those to which it could not send are in `failed`. -/
def Sending (i : ℕ) (project : Option ℤ) (due failed : List ℕ) (_ : Unit) (w : SocketWorld) :
    Prop :=
  w.due i = due ∧ w.failed i ⊆ failed ∧ ∀ websocket ∈ due, ∀ id ∈ project, w.Granted websocket id

theorem Sending.later {due failed : List ℕ} {s : Unit} {w v : SocketWorld}
    (h : Sending i project due failed s w) (hv : Later i w v) :
    Sending i project due failed s v :=
  ⟨hv.due.trans h.1, hv.failed ▸ h.2.1,
    fun websocket hmem id hid ↦ (h.2.2 websocket hmem id hid).mono hv.presented⟩

theorem Sending.mono {due failed failed' : List ℕ} {s : Unit} {w : SocketWorld}
    (h : Sending i project due failed s w) (hsub : failed ⊆ failed') :
    Sending i project due failed' s w :=
  ⟨h.1, List.Subset.trans h.2.1 hsub, h.2.2⟩

theorem safe_targets :
    Safe socketDiscipline i (.broadcast message project) (fun _ _ ↦ True)
      (await (.targets project)) (fun (sockets : List ℕ) ↦ Sending i project sockets [])
      fun e _ _ ↦ e.isException = false := by
  refine Safe.call fun s w v _ _ hsound choice answer v' hexec _ ↦ ?_
  simp only [socketSystem, SocketWorld.exec] at hexec
  split_ifs at hexec with horder
  cases hexec
  have hsockets : ∀ websocket ∈ choice.order,
      websocket ∈ (SocketWorld.manager v).targets project :=
    fun websocket hmem ↦ horder.2 ▸ List.mem_toFinset.mpr hmem
  refine ⟨⟨Sound.of_eq hsound rfl rfl (List.Subset.refl _), fun j hj ↦ ?_, ?_⟩, ?_⟩
  · exact ⟨List.Subset.refl _, Function.update_of_ne hj _ _, Function.update_of_ne hj _ _⟩
  · refine ⟨⟨message, rfl⟩, ?_, fun websocket hmem hgone ↦ ?_⟩
    · simp only [Function.update_self]
      exact horder.2
    · exact hsound.gone websocket hgone (hsound.inStep.targets_subset project hmem)
  · refine ⟨Function.update_self _ _ _, ?_, fun websocket hmem id hid ↦ ?_⟩
    · simp only [Function.update_self]
      exact List.Subset.refl _
    · cases hid
      exact hsound.granted id websocket (hsockets websocket hmem)

theorem safe_sendJson (rest failed : List ℕ) :
    Safe socketDiscipline i (.broadcast message project)
      (Sending i project (websocket :: rest) failed) (await (.sendJson websocket message))
      (fun _ ↦ Sending i project rest failed)
      fun _ ↦ Sending i project rest (websocket :: failed) := by
  refine Safe.call fun s w v hw hv hsound choice answer v' hexec _ ↦ ?_
  obtain ⟨hdue, hfailed, hgranted⟩ := hw.later hv
  cases hexec
  have hmem : websocket ∈ SocketWorld.due v i := hdue ▸ List.mem_cons_self
  have hrest : (SocketWorld.due v i).erase websocket = rest := by
    rw [hdue, List.erase_cons_head]
  have hcontained : ∃ other, SocketTask.broadcast message project = .broadcast message other ∧
      websocket ∈ SocketWorld.due v i ∧ ∀ id ∈ other, Granted v websocket id :=
    ⟨project, rfl, hmem, hgranted websocket List.mem_cons_self⟩
  cases hfault : choice.fault with
  | none =>
      simp only [SocketWorld.sent, SocketChoice.outcome, hfault, Option.elim_none]
      refine ⟨⟨Sound.of_eq hsound rfl rfl (List.Subset.refl _), fun j hj ↦ ?_, hcontained⟩, ?_⟩
      · exact ⟨List.Subset.refl _, Function.update_of_ne hj _ _, rfl⟩
      · exact ⟨(Function.update_self _ _ _).trans hrest, hfailed,
          fun other hother ↦ hgranted other (List.mem_cons_of_mem _ hother)⟩
  | some e =>
      simp only [SocketWorld.sent, SocketChoice.outcome, hfault, Option.elim_some]
      refine ⟨⟨Sound.of_eq hsound rfl rfl (List.Subset.refl _), fun j hj ↦ ?_, hcontained⟩, ?_⟩
      · exact ⟨List.Subset.refl _, Function.update_of_ne hj _ _, Function.update_of_ne hj _ _⟩
      · refine ⟨(Function.update_self _ _ _).trans hrest, ?_,
          fun other hother ↦ hgranted other (List.mem_cons_of_mem _ hother)⟩
        simp only [Function.update_self]
        exact List.cons_subset_cons _ hfailed

theorem safe_sendAll (sockets failed : List ℕ) :
    Safe socketDiscipline i (.broadcast message project) (Sending i project sockets failed)
      (WebSocketManager.sendAll message sockets)
      (fun disconnected ↦ Sending i project [] (failed ++ disconnected))
      fun e _ _ ↦ e.isException = false := by
  induction sockets generalizing failed with
  | nil => exact Safe.ret fun s w h ↦ h.mono (List.subset_append_left _ _)
  | cons websocket rest ih =>
      have hsend : Safe socketDiscipline i (.broadcast message project)
          (Sending i project (websocket :: rest) failed)
          (tryCatch (await (.sendJson websocket message) >>= fun _ ↦ pure false) fun e ↦
            if e.isException then pure true else throw e)
          (fun (hit : Bool) ↦ Sending i project rest (if hit then websocket :: failed else failed))
          fun e _ _ ↦ e.isException = false := by
        have hsent : Safe socketDiscipline i (.broadcast message project)
            (Sending i project (websocket :: rest) failed)
            (await (.sendJson websocket message) >>= fun _ ↦ pure false)
            (fun (hit : Bool) ↦
              Sending i project rest (if hit then websocket :: failed else failed))
            fun _ ↦ Sending i project rest (websocket :: failed) :=
          (safe_sendJson rest failed).bind fun _ ↦ Safe.ret (a := false) fun _ _ h ↦ h
        refine hsent.handle fun e ↦ ?_
        split_ifs with hexception
        · exact Safe.ret fun _ _ h ↦ h
        · exact Safe.throw fun _ _ _ ↦ by simpa using hexception
      refine hsend.bind fun hit ↦ (ih _).bind fun disconnected ↦ Safe.ret fun s w h ↦ h.mono ?_
      intro other hother
      cases hit with
      | false => exact hother
      | true =>
          simp only [if_true, List.mem_append, List.mem_cons] at hother ⊢
          tauto

theorem safe_remove (disconnected : List ℕ) :
    Safe socketDiscipline i (.broadcast message project) (Sending i project [] disconnected)
      (Program.forEach (fun websocket : ℕ ↦ await (.disconnect websocket)) disconnected)
      (fun _ ↦ Sending i project [] []) fun e _ _ ↦ e.isException = false := by
  refine Safe.forEach_left (fun websocket left ↦ ?_) disconnected
  refine Safe.call fun s w v hw hv hsound choice answer v' hexec _ ↦ ?_
  obtain ⟨hdue, hfailed, -⟩ := hw.later hv
  cases hexec
  refine ⟨⟨Sound.disconnect hsound rfl rfl rfl,
    fun j hj ↦ ⟨List.Subset.refl _, rfl, Function.update_of_ne hj _ _⟩, trivial⟩, hdue, ?_, ?_⟩
  · simp only [Function.update_self]
    intro other hother
    obtain ⟨hmem, hne⟩ := List.mem_filter.mp hother
    exact (List.mem_cons.mp (hfailed hmem)).resolve_left (by simpa using hne)
  · exact fun _ h ↦ (List.not_mem_nil h).elim

theorem safe_broadcast :
    Safe socketDiscipline i (.broadcast message project) (fun _ _ ↦ True)
      (WebSocketManager.broadcast message project) (fun _ ↦ Sending i project [] [])
      fun e _ _ ↦ e.isException = false :=
  safe_targets.bind fun sockets ↦ (safe_sendAll sockets []).bind fun disconnected ↦
    safe_remove disconnected

end SocketProg

/-! ## Runs of the manager -/

theorem sound_empty : ({} : SocketWorld).Sound where
  inStep _ _ h := by cases h
  granted _ _ h := (Finset.notMem_empty _ h).elim
  gone _ h := (Finset.notMem_empty _ h).elim

/-- Every coroutine is safe and ends as it should. -/
theorem safe_task (task : SocketTask) (i : ℕ) (w : SocketWorld) :
    (task.body ()).Safe socketDiscipline i task (fun _ _ w ↦ Ended w i task (.ok ()))
      (fun e _ w ↦ Ended w i task (.error e)) w := by
  cases task with
  | connect websocket token project =>
      exact Interleave.Program.Safe.bind (SocketProg.safe_connect token) (fun _ ↦
        Interleave.Program.Safe.ret fun _ _ h ↦ h) () w trivial
  | disconnect websocket => exact SocketProg.safe_disconnect () w trivial
  | broadcast message project =>
      refine (SocketProg.safe_broadcast () w trivial).mono (fun _ _ v h ↦ ?_) fun e _ _ h ↦ h
      exact ⟨h.1, List.subset_nil.mp h.2.1⟩

theorem socketDiscipline_sustained : socketDiscipline.Sustained where
  arrive _ w hw := ⟨hw, fun i ↦ socketDiscipline.rely_refl i w⟩
  body task i w _ := (safe_task task i w).mono (fun _ _ _ _ ↦ trivial) fun _ _ _ _ ↦ trivial
  crash _ _ := sound_empty

def socketStart : Config socketSystem where
  world := ({} : SocketWorld)

theorem ended_later {i : ℕ} {task : SocketTask} {result : Except SocketError Unit}
    {w v : SocketWorld} (h : Ended w i task result) (hv : w.Later i v) : Ended v i task result := by
  cases task with
  | connect => trivial
  | disconnect => trivial
  | broadcast message project =>
      cases result with
      | ok _ => exact ⟨hv.due.trans h.1, hv.failed.trans h.2⟩
      | error e => exact h

/-- Whatever the order of the coroutines, a stream reaches only sockets of its project. -/
theorem streams_stay_inside (moves : List (Move socketSystem)) :
    (∀ e ∈ socketStart.events moves, Contained e) ∧
      (SocketWorld.manager (socketStart.run moves).world).InStep ∧
      ∀ i task s result, (socketStart.run moves).threads[i]? = some (task, .done result s) →
        Ended (socketStart.run moves).world i task result := by
  have hstart : socketStart.Safe socketDiscipline := ⟨sound_empty, by simp [socketStart]⟩
  obtain ⟨hgood, hsafe⟩ := hstart.run socketDiscipline_sustained fun _ _ ↦ trivial
  refine ⟨hgood, hsafe.inv.inStep, fun i task s result htask ↦ ?_⟩
  have hends : Config.Safe.EndsAs socketDiscipline (fun i task _ w ↦ Ended w i task (.ok ()))
      (fun i task e _ w ↦ Ended w i task (.error e)) (socketStart.run moves) :=
    hstart.endsAs_run socketDiscipline_sustained (by simp [Config.Safe.EndsAs, socketStart])
      (fun task i w _ ↦ safe_task task i w) (fun _ _ _ _ _ h hv ↦ ended_later h hv)
      (fun _ _ _ _ _ _ h hv ↦ ended_later h hv) fun _ _ ↦ trivial
  have hend := hends i task _ htask
  cases result with
  | ok _ => exact hend
  | error e => exact hend

/-! ## A broadcast beside one that fails -/

/-- No broadcast starts with a socket that was disconnected or to which a send failed. -/
def Severed (e : Event socketSystem) : Prop :=
  match e.op with
  | .targets project =>
      ∀ websocket ∈ (SocketWorld.manager e.before).targets project,
        websocket ∉ SocketWorld.gone e.before ∧ websocket ∉ SocketWorld.dropped e.before
  | _ => True

instance : DecidablePred Severed := fun e ↦ by
  unfold Severed
  split <;> infer_instance

def dashboardChoice : SocketChoice where
  payload := .ok [("project_ids", .arr [.num 5])]
  order := [1, 2]

/-- The send to the first of two dashboards fails, and before it is removed another broadcast
starts. -/
def brokenDashboard : List (Move socketSystem) :=
  let steps (thread n : ℕ) : List (Move socketSystem) :=
    List.replicate n (.step thread dashboardChoice)
  [.start (.connect 1 (some "a") (some 5)), .start (.connect 2 (some "b") (some 5)),
    .start (.broadcast "first" (some 5)), .start (.broadcast "second" (some 5))] ++
    steps 0 3 ++ steps 1 3 ++ steps 2 1 ++
    [.step 2 { dashboardChoice with fault := some (.failed "broken pipe") }] ++ steps 3 1

theorem broken_dashboard_is_used :
    ¬ ∀ moves : List (Move socketSystem),
      (∀ e ∈ socketStart.events moves, Contained e ∧ Severed e) ∧
        (SocketWorld.manager (socketStart.run moves).world).InStep ∧
        ∀ i task s result, (socketStart.run moves).threads[i]? = some (task, .done result s) →
          Ended (socketStart.run moves).world i task result := by
  intro h
  have hused : ∃ e ∈ socketStart.events brokenDashboard, ¬ Severed e := by decide +kernel
  obtain ⟨e, he, hsevered⟩ := hused
  exact hsevered ((h brokenDashboard).1 e he).2

end MergeQueue
