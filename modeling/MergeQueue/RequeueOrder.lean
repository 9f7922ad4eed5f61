import MergeQueue.QueueManager
import MergeQueue.Lib.IntervalClock
import Mathlib.Data.List.Perm.Basic

/-!
# The order of delivery of requeue events

The saved request of a row is an interval register: an enqueue inserts, a
cancellation deletes, and the clock that is compared is the one that was saved
last.  Writing a request refines one delivery to the register, so the
dependence of the final decision on the order of delivery is the register's.
-/

namespace MergeQueue

open IntervalClock

/-! ## A saved request as a register -/

/-- The clock stands for the interval, or for no interval at all. -/
def SourceClock.Shows (clock : SourceClock) : Option (Span ℤ) → Prop
  | none => clock.requestedAt = none
  | some a => clock.requestedAt = some a.lo ∧ a.hi = a.lo + clock.precisionUs

/-- The interval of a clock with a positive precision. -/
def SourceClock.span (clock : SourceClock)
    (h : ∀ start, clock.requestedAt = some start → 0 < clock.precisionUs) : Option (Span ℤ) :=
  match hstart : clock.requestedAt with
  | none => none
  | some start =>
      some
        { lo := start
          hi := start + clock.precisionUs
          lt := by
            have hpos := h start hstart
            omega }

theorem SourceClock.shows_span (clock : SourceClock)
    (h : ∀ start, clock.requestedAt = some start → 0 < clock.precisionUs) :
    clock.Shows (clock.span h) := by
  obtain ⟨_ | start, p⟩ := clock
  · rfl
  · exact ⟨rfl, rfl⟩

theorem SourceClock.Shows.unique {clock : SourceClock} {i j : Option (Span ℤ)}
    (hi : clock.Shows i) (hj : clock.Shows j) : i = j := by
  obtain ⟨start, p⟩ := clock
  rcases i with _ | ⟨a, b, hab⟩ <;> rcases j with _ | ⟨c, d, hcd⟩ <;>
    simp_all [SourceClock.Shows]

/-- The comparison of two clocks is the order of their intervals. -/
theorem compareEvent_of_shows {a b : SourceClock} {i j : Span ℤ} (ha : a.Shows (some i))
    (hb : b.Shows (some j)) :
    compareEvent a b = if i.Before j then -1 else if j.Before i then 1 else 0 := by
  obtain ⟨_, p⟩ := a
  obtain ⟨_, q⟩ := b
  obtain ⟨rfl, hi⟩ := ha
  obtain ⟨rfl, hj⟩ := hb
  simp only [compareEvent_some, Span.Before, hi, hj]

theorem compareEvent_of_shows_none_left {a b : SourceClock} (ha : a.Shows none) :
    compareEvent a b = 0 := by
  obtain ⟨_, p⟩ := a
  cases ha
  rfl

theorem compareEvent_of_shows_none_right {a b : SourceClock} (hb : b.Shows none) :
    compareEvent a b = 0 := by
  obtain ⟨_, p⟩ := b
  cases hb
  simp

theorem preserveUncertainty_shows {a b : SourceClock} {i j : Span ℤ} (ha : a.Shows (some i))
    (hb : b.Shows (some j)) : (preserveUncertainty a b).Shows (some (i.hull j)) := by
  obtain ⟨_, p⟩ := a
  obtain ⟨_, q⟩ := b
  obtain ⟨rfl, hi⟩ := ha
  obtain ⟨rfl, hj⟩ := hb
  refine ⟨rfl, ?_⟩
  simp only [preserveUncertainty_some, Span.hull_lo, Span.hull_hi, hi, hj]
  omega

theorem preserveUncertainty_shows_none {a b : SourceClock} (h : a.Shows none ∨ b.Shows none) :
    (preserveUncertainty a b).Shows none := by
  obtain ⟨_ | s, p⟩ := a <;> obtain ⟨_ | o, q⟩ := b <;>
    simp_all [SourceClock.Shows, preserveUncertainty]

/-- The saved request and the register hold the same kind of event and clock. -/
def Represents : Option Requeue → Register ℤ → Prop
  | none, .empty => True
  | some saved, .inserted i => (∃ a, saved.intent = .enqueue a) ∧ saved.clock.Shows i
  | some saved, .deleted c =>
      (∃ a, saved.intent = .cancel c.lo a) ∧ saved.clock.Shows (some c)
  | _, _ => False

/-- The event of the register that an incoming request stands for. -/
inductive Stands : Incoming → Event ℤ → Prop
  | enqueue {request : EnqueueRequest} {params : RequeueParams} {i : Option (Span ℤ)}
      (h : request.clock.Shows i) : Stands (.enqueue request params) (.insert i)
  | cancel {eventAt p : ℤ} {messageId : Option String} {c : Span ℤ}
      (h : SourceClock.Shows ⟨some eventAt, p⟩ (some c)) :
      Stands (.cancel eventAt p messageId) (.delete c)

/-- The message identities a saved request has seen. -/
def seenMessages (previous : Option Requeue) : List String :=
  (previous.map Requeue.seenMessages).getD []

/-- The event is acknowledged without a write. -/
def Kept (incoming : Incoming) (previous : Option Requeue) : Prop :=
  compareEvent incoming.clock (savedClock previous) < 0 ∨
    compareEvent incoming.clock (savedClock previous) = 0 ∧ incoming.cancelled = true ∧
      ∃ saved, previous = some saved ∧ saved.cancelledEvents = []

theorem writtenRequeue_of_unseen (incoming : Incoming) {previous : Option Requeue}
    (hseen : ∀ m, incoming.messageId = some m → m ∉ seenMessages previous) (token : Uuid) :
    (Kept incoming previous ∧ writtenRequeue incoming previous token = none) ∨
      (¬ Kept incoming previous ∧
        writtenRequeue incoming previous token =
          some
            { mergeRequeue incoming previous
                (compareEvent incoming.clock (savedClock previous)) with
              appliedAt := none
              token := some token
              seenMessages :=
                seenMessages previous ++ (incoming.messageId.filter (· ≠ "")).toList }) := by
  have hnew : ¬ (incoming.messageId.any fun m ↦
      ((previous.map Requeue.seenMessages).getD []).contains m) = true := by
    cases hm : incoming.messageId with
    | none => simp
    | some m => simpa [seenMessages] using hseen m hm
  have hkeeps : (previous.any fun saved ↦ saved.cancelledEvents.isEmpty) = true ↔
      ∃ saved, previous = some saved ∧ saved.cancelledEvents = [] := by
    cases previous <;> simp
  simp only [writtenRequeue, if_neg hnew, hkeeps, Kept]
  split_ifs with hbefore hkept
  · exact Or.inl ⟨Or.inl hbefore, rfl⟩
  · exact Or.inl ⟨Or.inr hkept, rfl⟩
  · exact Or.inr ⟨fun h ↦ h.elim hbefore hkept, rfl⟩

theorem mergeRequeue_enqueue_clock (request : EnqueueRequest) (params : RequeueParams)
    (previous : Option Requeue) (order : ℤ) :
    (mergeRequeue (.enqueue request params) previous order).clock =
      if order = 0 ∧ (previous.bind Requeue.liveAdmission).isSome = true then
        preserveUncertainty request.clock (savedClock previous)
      else request.clock := by
  simp only [mergeRequeue]
  by_cases horder : order = 0 <;> simp [horder]

/-- The saved request after an event. -/
def afterWrite (incoming : Incoming) (previous : Option Requeue) (token : Uuid) :
    Option Requeue :=
  (writtenRequeue incoming previous token).or previous

/-- A cancellation is dropped, or replaces the saved clock by its own. -/
theorem represents_cancel {eventAt p : ℤ} {m : Option String} {c : Span ℤ}
    (hc : SourceClock.Shows ⟨some eventAt, p⟩ (some c)) {previous : Option Requeue}
    {r : Register ℤ} (hprevious : Represents previous r)
    (hseen : ∀ m', m = some m' → m' ∉ seenMessages previous) (token : Uuid) :
    Represents (afterWrite (.cancel eventAt p m) previous token) (r.deliver (.delete c)) := by
  obtain ⟨hat, -⟩ := id hc
  simp only [Option.some.injEq] at hat
  subst hat
  have horder : ∀ {saved : Requeue} {j : Span ℤ}, saved.clock.Shows (some j) →
      compareEvent ⟨some c.lo, p⟩ saved.clock =
        if c.Before j then -1 else if j.Before c then 1 else 0 :=
    fun hj ↦ compareEvent_of_shows hc hj
  rcases writtenRequeue_of_unseen (.cancel c.lo p m) hseen token with
    ⟨hkept, hwritten⟩ | ⟨hkept, hwritten⟩
  · rw [afterWrite, hwritten, Option.none_or]
    suffices hregister : r.deliver (.delete c) = r from hregister.symm ▸ hprevious
    rcases previous with _ | saved
    · simp [Kept, savedClock] at hkept
    · rcases r with _ | (_ | a) | d
      · exact hprevious.elim
      · rfl
      · obtain ⟨-, hclock⟩ := hprevious
        have hbefore : ¬ a.Before c := by
          intro hac
          simp [Kept, savedClock, horder hclock, hac, Span.not_before_of_before hac] at hkept
        simp [Register.deliver, hbefore]
      · obtain ⟨⟨k, hintent⟩, hclock⟩ := hprevious
        have hbefore : c.Before d := by
          by_contra hcd
          simp only [Kept, savedClock, Incoming.clock_cancel, horder hclock, hcd, if_false] at hkept
          split_ifs at hkept <;> simp [Requeue.cancelledEvents_of_cancel hintent] at hkept
        simp [Register.deliver, hbefore]
  · rw [afterWrite, hwritten, Option.some_or]
    suffices hregister : r.deliver (.delete c) = .deleted c by
      rw [hregister]
      exact ⟨⟨_, rfl⟩, hc⟩
    rcases previous with _ | saved
    · rcases r with _ | _ | _
      · rfl
      · exact hprevious.elim
      · exact hprevious.elim
    · rcases r with _ | (_ | a) | d
      · exact hprevious.elim
      · obtain ⟨⟨k, hintent⟩, hclock⟩ := hprevious
        refine absurd (Or.inr ⟨compareEvent_of_shows_none_right hclock, rfl, saved, rfl, ?_⟩) hkept
        exact Requeue.cancelledEvents_of_enqueue hintent
      · obtain ⟨⟨k, hintent⟩, hclock⟩ := hprevious
        have hbefore : a.Before c := by
          by_contra hac
          refine hkept ?_
          simp only [Kept, savedClock, Incoming.clock_cancel, horder hclock, hac, if_false]
          split_ifs <;> simp [Requeue.cancelledEvents_of_enqueue hintent]
        simp [Register.deliver, hbefore]
      · obtain ⟨-, hclock⟩ := hprevious
        have hbefore : ¬ c.Before d := fun hcd ↦
          hkept (Or.inl (by simp [savedClock, horder hclock, hcd]))
        simp [Register.deliver, hbefore]

/-- An enqueue is dropped, joins a saved enqueue, or replaces what is saved. -/
theorem represents_enqueue {request : EnqueueRequest} {params : RequeueParams}
    {i : Option (Span ℤ)} (hi : request.clock.Shows i) {previous : Option Requeue}
    {r : Register ℤ} (hprevious : Represents previous r)
    (hseen : ∀ m, request.messageId = some m → m ∉ seenMessages previous) (token : Uuid) :
    Represents (afterWrite (.enqueue request params) previous token) (r.deliver (.insert i)) := by
  rcases writtenRequeue_of_unseen (.enqueue request params) hseen token with
    ⟨hkept, hwritten⟩ | ⟨hkept, hwritten⟩
  · rw [afterWrite, hwritten, Option.none_or]
    suffices hregister : r.deliver (.insert i) = r from hregister.symm ▸ hprevious
    have hbefore : compareEvent request.clock (savedClock previous) < 0 := by
      simpa [Kept] using hkept
    rcases previous with _ | saved
    · simp [savedClock] at hbefore
    · simp only [savedClock] at hbefore
      rcases i with _ | a
      · simp [compareEvent_of_shows_none_left hi] at hbefore
      · rcases r with _ | (_ | b) | d
        · exact hprevious.elim
        · rfl
        · have hab : a.Before b := by
            by_contra hab
            rw [compareEvent_of_shows hi hprevious.2, if_neg hab] at hbefore
            split_ifs at hbefore <;> simp at hbefore
          simp [Register.deliver, hab]
        · have had : a.Before d := by
            by_contra had
            rw [compareEvent_of_shows hi hprevious.2, if_neg had] at hbefore
            split_ifs at hbefore <;> simp at hbefore
          simp [Register.deliver, had]
  · rw [afterWrite, hwritten, Option.some_or]
    have horder : ¬ compareEvent request.clock (savedClock previous) < 0 := fun h ↦
      hkept (Or.inl h)
    suffices hregister : ∃ k, r.deliver (.insert i) = .inserted k ∧
        (mergeRequeue (.enqueue request params) previous
          (compareEvent request.clock (savedClock previous))).clock.Shows k by
      obtain ⟨k, hk, hclock⟩ := hregister
      rw [hk]
      exact ⟨⟨_, rfl⟩, hclock⟩
    rw [mergeRequeue_enqueue_clock]
    rcases previous with _ | saved
    · rcases r with _ | _ | _
      · exact ⟨i, rfl, by simpa using hi⟩
      · exact hprevious.elim
      · exact hprevious.elim
    · simp only [savedClock, Option.bind_some] at horder ⊢
      rcases r with _ | (_ | b) | d
      · exact hprevious.elim
      · obtain ⟨⟨k, hintent⟩, hclock⟩ := hprevious
        refine ⟨none, rfl, ?_⟩
        simp only [compareEvent_of_shows_none_right hclock, Requeue.liveAdmission, hintent]
        exact preserveUncertainty_shows_none (Or.inr hclock)
      · obtain ⟨⟨k, hintent⟩, hclock⟩ := hprevious
        rcases i with _ | a
        · refine ⟨none, rfl, ?_⟩
          simp only [compareEvent_of_shows_none_left hi, Requeue.liveAdmission, hintent]
          exact preserveUncertainty_shows_none (Or.inl hi)
        · simp only [compareEvent_of_shows hi hclock] at horder ⊢
          have hab : ¬ a.Before b := fun hab ↦ horder (by simp [hab])
          by_cases hba : b.Before a
          · exact ⟨some a, by simp [Register.deliver, hab, hba], by simpa [hab, hba] using hi⟩
          · refine ⟨some (a.hull b), by simp [Register.deliver, hab, hba], ?_⟩
            simpa [hab, hba, Requeue.liveAdmission, hintent] using
              preserveUncertainty_shows hi hclock
      · obtain ⟨⟨k, hintent⟩, hclock⟩ := hprevious
        have hlive : saved.liveAdmission = none := by simp [Requeue.liveAdmission, hintent]
        rcases i with _ | a
        · exact ⟨none, rfl, by simpa [hlive] using hi⟩
        · have had : ¬ a.Before d := fun had ↦
            horder (by simp [compareEvent_of_shows hi hclock, had])
          exact ⟨some a, by simp [Register.deliver, had], by simpa [hlive] using hi⟩

/-- A write changes the request as a delivery changes the register. -/
theorem represents_afterWrite {incoming : Incoming} {event : Event ℤ}
    (hstands : Stands incoming event) {previous : Option Requeue} {r : Register ℤ}
    (hprevious : Represents previous r)
    (hseen : ∀ m, incoming.messageId = some m → m ∉ seenMessages previous) (token : Uuid) :
    Represents (afterWrite incoming previous token) (r.deliver event) := by
  cases hstands with
  | enqueue h => exact represents_enqueue h hprevious hseen token
  | cancel h => exact represents_cancel h hprevious hseen token

/-! ## Deliveries to one row -/

/-- What a webhook handler asks the queue manager to admit to a row. -/
inductive RequeueEvent
  | enqueue (item : QueueItem) (request : EnqueueRequest)
  | cancel (eventAt precisionUs : ℤ) (messageId : Option String)
  deriving DecidableEq, Repr

namespace RequeueEvent

def incoming (projectId : ℕ) : RequeueEvent → Incoming
  | enqueue item request => .enqueue request (QueueManager.requeueParams projectId item request)
  | cancel eventAt precisionUs messageId => .cancel eventAt precisionUs messageId

def clock : RequeueEvent → SourceClock
  | enqueue _ request => request.clock
  | cancel eventAt precisionUs _ => { requestedAt := some eventAt, precisionUs }

def messageId : RequeueEvent → Option String
  | enqueue _ request => request.messageId
  | cancel _ _ messageId => messageId

@[simp] theorem incoming_enqueue (projectId : ℕ) (item : QueueItem) (request : EnqueueRequest) :
    (enqueue item request).incoming projectId =
      .enqueue request (QueueManager.requeueParams projectId item request) := rfl

@[simp] theorem incoming_cancel (projectId : ℕ) (eventAt p : ℤ) (m : Option String) :
    (cancel eventAt p m).incoming projectId = .cancel eventAt p m := rfl

@[simp] theorem messageId_incoming (projectId : ℕ) (e : RequeueEvent) :
    (e.incoming projectId).messageId = e.messageId := by
  cases e <;> rfl

end RequeueEvent

/-- One delivery of an event whose source interval is not empty. -/
structure Delivery where
  event : RequeueEvent
  allowActive : Bool
  token : Uuid
  precision_pos : ∀ start, event.clock.requestedAt = some start → 0 < event.clock.precisionUs

namespace Delivery

def messageId (d : Delivery) : Option String := d.event.messageId

def apply (projectId queueId : ℕ) (db : Database) (d : Delivery) : Database :=
  committed db
    (match d.event with
    | .enqueue item request =>
        QueueManager.deferRequeue projectId item request d.allowActive d.token db
    | .cancel eventAt precisionUs messageId =>
        QueueManager.cancelRequeue projectId queueId eventAt precisionUs messageId d.allowActive
          d.token db)

/-- The delivery is made to the row `queueId`, which accepts it. -/
def Addresses (projectId queueId : ℕ) (row : MergeRequestRow) (d : Delivery) : Prop :=
  QueueManager.mayWriteRequeue projectId queueId d.allowActive row = true ∧
    ∀ item request, d.event = .enqueue item request → item.queueId = queueId

/-- The event of the register. -/
def registerEvent (d : Delivery) : Event ℤ :=
  match hevent : d.event with
  | .enqueue _ request =>
      .insert (request.clock.span fun start hstart ↦ by
        have hpos := d.precision_pos start
        rw [hevent] at hpos
        exact hpos hstart)
  | .cancel eventAt precisionUs _ =>
      .delete
        { lo := eventAt
          hi := eventAt + precisionUs
          lt := by
            have hpos := d.precision_pos eventAt
            rw [hevent] at hpos
            have hlt : 0 < precisionUs := hpos rfl
            omega }

theorem stands_registerEvent (projectId : ℕ) (d : Delivery) :
    Stands (d.event.incoming projectId) d.registerEvent := by
  obtain ⟨event, allowActive, token, hpos⟩ := d
  cases event with
  | enqueue item request => exact .enqueue (request.clock.shows_span _)
  | cancel eventAt precisionUs messageId => exact .cancel ⟨rfl, rfl⟩

end Delivery

/-- Saves `saved` as the request of the row. -/
def MergeRequestRow.withRequeue (row : MergeRequestRow) (saved : Option Requeue) :
    MergeRequestRow :=
  { row with requeueRequest := saved }

theorem QueueManager.rowId_of_mayWriteRequeue {projectId queueId : ℕ} {allowActive : Bool}
    {row : MergeRequestRow}
    (h : QueueManager.mayWriteRequeue projectId queueId allowActive row = true) :
    row.id = queueId := by
  simp only [QueueManager.mayWriteRequeue, Bool.and_eq_true, decide_eq_true_eq] at h
  exact h.1.2

/-- Writing a request on a row that accepts it changes that row only, and the
conditional write always hits. -/
theorem QueueManager.writeRequeue_eq {projectId queueId : ℕ} {allowActive : Bool}
    {db : Database} {row : MergeRequestRow} (incoming : Incoming) (token : Uuid)
    (hrow : db.mergeRequests.byId queueId = some row)
    (hmay : mayWriteRequeue projectId queueId allowActive row = true) :
    ∃ db', writeRequeue projectId queueId incoming allowActive token db = .ok (true, db') ∧
      db'.mergeRequests.byId queueId =
        some (row.withRequeue (afterWrite incoming row.requeueRequest token)) := by
  have hfind : db.mergeRequests.rows.find? (mayWriteRequeue projectId queueId allowActive) =
      some row :=
    KeyedTable.find?_eq_some_of_byId hrow hmay fun s hs ↦ rowId_of_mayWriteRequeue hs
  simp only [writeRequeue, hfind]
  cases hwritten : writtenRequeue incoming row.requeueRequest token with
  | none =>
      refine ⟨db, rfl, ?_⟩
      rw [hrow, afterWrite, hwritten, Option.none_or]
      rfl
  | some pending =>
      have hmem : row ∈ db.mergeRequests.rows := (KeyedTable.byId_eq_some_iff.mp hrow).1
      have hany : (db.mergeRequests.rows.any fun r ↦
          mayWriteRequeue projectId queueId allowActive r &&
            r.requeueRequest = row.requeueRequest) = true :=
        List.any_eq_true.mpr ⟨row, hmem, by simp [hmay]⟩
      simp only [replaceRequeue, hany, if_true]
      refine ⟨_, rfl, ?_⟩
      rw [KeyedTable.byId_updateWhere, hrow, afterWrite, hwritten, Option.some_or]
      simp [hmay, MergeRequestRow.withRequeue]

theorem Delivery.byId_apply {projectId queueId : ℕ} {db : Database} {row : MergeRequestRow}
    {d : Delivery} (hrow : db.mergeRequests.byId queueId = some row)
    (hd : d.Addresses projectId queueId row) :
    (d.apply projectId queueId db).mergeRequests.byId queueId =
      some (row.withRequeue
        (afterWrite (d.event.incoming projectId) row.requeueRequest d.token)) := by
  obtain ⟨event, allowActive, token, hpos⟩ := d
  obtain ⟨hmay, hitem⟩ := hd
  cases event with
  | enqueue item request =>
      obtain rfl := hitem item request rfl
      obtain ⟨db', hwrite, hbyId⟩ := QueueManager.writeRequeue_eq
        (.enqueue request (QueueManager.requeueParams projectId item request)) token hrow hmay
      simpa only [Delivery.apply, QueueManager.deferRequeue, hwrite, committed_ok,
        RequeueEvent.incoming_enqueue] using hbyId
  | cancel eventAt precisionUs messageId =>
      obtain ⟨db', hwrite, hbyId⟩ := QueueManager.writeRequeue_eq
        (.cancel eventAt precisionUs messageId) token hrow hmay
      simpa only [Delivery.apply, QueueManager.cancelRequeue, hwrite, committed_ok,
        RequeueEvent.incoming_cancel] using hbyId

def deliverAll (projectId queueId : ℕ) (deliveries : List Delivery) (db : Database) : Database :=
  deliveries.foldl (Delivery.apply projectId queueId) db

theorem mem_seenMessages_afterWrite {incoming : Incoming} {previous : Option Requeue}
    {token : Uuid} {m : String}
    (hm : m ∈ seenMessages (afterWrite incoming previous token)) :
    m ∈ seenMessages previous ∨ incoming.messageId = some m := by
  cases hwritten : writtenRequeue incoming previous token with
  | none =>
      rw [afterWrite, hwritten, Option.none_or] at hm
      exact Or.inl hm
  | some pending =>
      rw [afterWrite, hwritten, Option.some_or] at hm
      simp only [writtenRequeue] at hwritten
      split_ifs at hwritten
      cases hwritten
      rcases List.mem_append.mp hm with hm | hm
      · exact Or.inl hm
      · simp only [Option.mem_toList, Option.filter_eq_some_iff] at hm
        exact Or.inr hm.1

/-- After any deliveries the saved request represents the register that ran over
their events. -/
theorem deliverAll_represents {projectId queueId : ℕ} {row : MergeRequestRow}
    {deliveries : List Delivery} {db : Database} {saved : Option Requeue} {r : Register ℤ}
    (hrow : db.mergeRequests.byId queueId = some (row.withRequeue saved))
    (hsaved : Represents saved r)
    (haddress : ∀ d ∈ deliveries, d.Addresses projectId queueId row)
    (hids : (deliveries.filterMap Delivery.messageId).Nodup)
    (hunseen : ∀ d ∈ deliveries, ∀ m, d.messageId = some m → m ∉ seenMessages saved) :
    ∃ saved', (deliverAll projectId queueId deliveries db).mergeRequests.byId queueId =
        some (row.withRequeue saved') ∧
      Represents saved' ((deliveries.map Delivery.registerEvent).foldl Register.deliver r) := by
  induction deliveries generalizing db saved r with
  | nil => exact ⟨saved, hrow, hsaved⟩
  | cons d ds ih =>
      have hstep := Delivery.byId_apply hrow (haddress d List.mem_cons_self)
      have hrepresents := represents_afterWrite (d.stands_registerEvent projectId) hsaved
        (fun m hm ↦ hunseen d List.mem_cons_self m
          (by simpa [Delivery.messageId] using hm)) d.token
      refine ih hstep hrepresents (fun e he ↦ haddress e (List.mem_cons_of_mem _ he)) ?_ ?_
      · cases hm : d.messageId with
        | none => simpa [hm] using hids
        | some m =>
            rw [List.filterMap_cons_some hm] at hids
            exact hids.of_cons
      · intro e he m hm hseen
        rcases mem_seenMessages_afterWrite hseen with hseen | hseen
        · exact hunseen e (List.mem_cons_of_mem _ he) m hm hseen
        · rw [RequeueEvent.messageId_incoming] at hseen
          have hhead : d.messageId = some m := hseen
          rw [List.filterMap_cons_some hhead] at hids
          exact (List.nodup_cons.mp hids).1 (List.mem_filterMap.mpr ⟨e, he, hm⟩)

/-! ## The decision of the final transaction -/

/-- The saved request of the row is there and not cancelled. -/
def admits (queueId : ℕ) (ownEvents : List LabelEvent) (db : Database) : Bool :=
  (db.mergeRequests.byId queueId).any fun row ↦
    row.requeueRequest.any fun request ↦ !requeueIsCancelled request ownEvents

/-- Some enqueue is not definitely before any cancellation. -/
def SomeEnqueueSurvives (deliveries : List Delivery) : Prop :=
  ∃ d ∈ deliveries, ∃ item request, d.event = .enqueue item request ∧
    ∀ c ∈ deliveries, ∀ eventAt p m, c.event = .cancel eventAt p m →
      ∀ start, request.clock.requestedAt = some start →
        definitelyBefore start request.clock.precisionUs eventAt = false

/-- All enqueues end by the instant `t`, some cancellation starts from `t` on,
and no cancellation reaches across `t`. -/
def SeparatedAt (deliveries : List Delivery) (t : ℤ) : Prop :=
  (∀ d ∈ deliveries, ∀ item request, d.event = .enqueue item request →
      ∃ start, request.clock.requestedAt = some start ∧
        definitelyBefore start request.clock.precisionUs t = true) ∧
    (∃ c ∈ deliveries, ∃ eventAt p m, c.event = .cancel eventAt p m ∧ t ≤ eventAt) ∧
      ∀ c ∈ deliveries, ∀ eventAt p m, c.event = .cancel eventAt p m →
        definitelyBefore eventAt p t = true ∨ t ≤ eventAt

/-- Where all enqueues are outdated, some instant separates them from a
cancellation. -/
def OutdatedEnqueuesSeparated (deliveries : List Delivery) : Prop :=
  (∃ d ∈ deliveries, ∃ item request, d.event = .enqueue item request) →
    SomeEnqueueSurvives deliveries ∨ ∃ t, SeparatedAt deliveries t

theorem Delivery.registerEvent_eq_insert_iff {d : Delivery} {i : Option (Span ℤ)} :
    d.registerEvent = .insert i ↔
      ∃ item request, d.event = .enqueue item request ∧ request.clock.Shows i := by
  obtain ⟨event, allowActive, token, hpos⟩ := d
  cases event with
  | enqueue item request =>
      constructor
      · intro h
        refine ⟨item, request, rfl, ?_⟩
        cases h
        exact SourceClock.shows_span _ _
      · rintro ⟨_, _, heq, hi⟩
        cases heq
        exact congrArg _ ((SourceClock.shows_span _ _).unique hi)
  | cancel eventAt p m =>
      constructor
      · intro h
        cases h
      · rintro ⟨_, _, h, -⟩
        cases h

theorem Delivery.registerEvent_eq_delete_iff {d : Delivery} {c : Span ℤ} :
    d.registerEvent = .delete c ↔
      ∃ p m, d.event = .cancel c.lo p m ∧ c.hi = c.lo + p := by
  obtain ⟨event, allowActive, token, hpos⟩ := d
  cases event with
  | enqueue item request =>
      constructor
      · intro h
        cases h
      · rintro ⟨_, _, h, -⟩
        cases h
  | cancel eventAt p m =>
      constructor
      · intro h
        cases h
        exact ⟨p, m, rfl, rfl⟩
      · rintro ⟨_, _, heq, hhi⟩
        obtain ⟨lo, hi, hlt⟩ := c
        cases heq
        change hi = lo + p at hhi
        subst hhi
        rfl

section Register

variable {deliveries : List Delivery}

theorem insert_mem_map_iff {i : Option (Span ℤ)} :
    Event.insert i ∈ deliveries.map Delivery.registerEvent ↔
      ∃ d ∈ deliveries, ∃ item request, d.event = .enqueue item request ∧
        request.clock.Shows i := by
  simp only [List.mem_map, Delivery.registerEvent_eq_insert_iff]

theorem delete_mem_map_iff {c : Span ℤ} :
    Event.delete c ∈ deliveries.map Delivery.registerEvent ↔
      ∃ d ∈ deliveries, ∃ p m, d.event = .cancel c.lo p m ∧ c.hi = c.lo + p := by
  simp only [List.mem_map, Delivery.registerEvent_eq_delete_iff]

/-- The interval of a delivered cancellation. -/
theorem exists_delete_of_cancel {d : Delivery} (hd : d ∈ deliveries) {eventAt p : ℤ}
    {m : Option String} (hevent : d.event = .cancel eventAt p m) :
    ∃ c : Span ℤ, c.lo = eventAt ∧ c.hi = eventAt + p ∧
      Event.delete c ∈ deliveries.map Delivery.registerEvent := by
  have hpos := d.precision_pos eventAt
  rw [hevent] at hpos
  have hlt : 0 < p := hpos rfl
  refine ⟨⟨eventAt, eventAt + p, by omega⟩, rfl, rfl, ?_⟩
  exact delete_mem_map_iff.mpr ⟨d, hd, p, m, hevent, rfl⟩

/-- The interval of a delivered enqueue, if it has one. -/
theorem exists_insert_of_enqueue {d : Delivery} (hd : d ∈ deliveries) {item : QueueItem}
    {request : EnqueueRequest} (hevent : d.event = .enqueue item request) :
    ∃ i, request.clock.Shows i ∧ Event.insert i ∈ deliveries.map Delivery.registerEvent := by
  have hpos := d.precision_pos
  rw [hevent] at hpos
  refine ⟨request.clock.span hpos, request.clock.shows_span hpos, ?_⟩
  exact insert_mem_map_iff.mpr ⟨d, hd, item, request, hevent, request.clock.shows_span hpos⟩

theorem admitted_iff_someEnqueueSurvives :
    Admitted (deliveries.map Delivery.registerEvent) ↔ SomeEnqueueSurvives deliveries := by
  constructor
  · rintro ⟨i, hi, hclear⟩
    obtain ⟨d, hd, item, request, hevent, hshows⟩ := insert_mem_map_iff.mp hi
    refine ⟨d, hd, item, request, hevent, ?_⟩
    intro c hc eventAt p m hcancel start hstart
    obtain ⟨k, rfl, -, hk⟩ := exists_delete_of_cancel hc hcancel
    rcases i with _ | a
    · rw [show request.clock.requestedAt = none from hshows] at hstart
      cases hstart
    · obtain ⟨hlo, hhi⟩ := hshows
      obtain rfl : a.lo = start := by simpa [hlo] using hstart
      have hbefore := hclear a rfl k hk
      simpa [definitelyBefore, Span.Before, hhi] using hbefore
  · rintro ⟨d, hd, item, request, hevent, hclear⟩
    obtain ⟨i, hshows, hi⟩ := exists_insert_of_enqueue hd hevent
    refine ⟨i, hi, ?_⟩
    rintro a rfl k hk hbefore
    obtain ⟨c, hc, p, m, hcancel, -⟩ := delete_mem_map_iff.mp hk
    have hlate := hclear c hc k.lo p m hcancel a.lo hshows.1
    simp only [definitelyBefore, ← hshows.2, decide_eq_false_iff_not] at hlate
    exact hlate hbefore

theorem cutAt_iff_separatedAt {t : ℤ} :
    CutAt (deliveries.map Delivery.registerEvent) t ↔ SeparatedAt deliveries t := by
  constructor
  · rintro ⟨hinsert, ⟨k, hk, htk⟩, hdelete⟩
    refine ⟨?_, ?_, ?_⟩
    · intro d hd item request hevent
      obtain ⟨i, hshows, hi⟩ := exists_insert_of_enqueue hd hevent
      obtain ⟨a, rfl, hat⟩ := hinsert i hi
      exact ⟨a.lo, hshows.1, by simpa [definitelyBefore, ← hshows.2] using hat⟩
    · obtain ⟨c, hc, p, m, hcancel, -⟩ := delete_mem_map_iff.mp hk
      exact ⟨c, hc, k.lo, p, m, hcancel, htk⟩
    · intro c hc eventAt p m hcancel
      obtain ⟨k, rfl, hhi, hk⟩ := exists_delete_of_cancel hc hcancel
      have hsides := Span.le_or_le_of_not_straddles (hdelete k hk)
      simpa [definitelyBefore, ← hhi] using hsides
  · rintro ⟨hinsert, ⟨c, hc, eventAt, p, m, hcancel, hlate⟩, hdelete⟩
    refine ⟨?_, ?_, ?_⟩
    · intro i hi
      obtain ⟨d, hd, item, request, hevent, hshows⟩ := insert_mem_map_iff.mp hi
      obtain ⟨start, hstart, hbefore⟩ := hinsert d hd item request hevent
      rcases i with _ | a
      · rw [show request.clock.requestedAt = none from hshows] at hstart
        cases hstart
      · obtain ⟨hlo, hhi⟩ := hshows
        obtain rfl : a.lo = start := by simpa [hlo] using hstart
        exact ⟨a, rfl, by simpa [definitelyBefore, hhi] using hbefore⟩
    · obtain ⟨k, rfl, -, hk⟩ := exists_delete_of_cancel hc hcancel
      exact ⟨k, hk, hlate⟩
    · intro k hk hstraddles
      obtain ⟨c, hc, p, m, hcancel, hhi⟩ := delete_mem_map_iff.mp hk
      rcases hdelete c hc k.lo p m hcancel with hbefore | hafter
      · exact not_lt_of_ge (by simpa [definitelyBefore, hhi] using hbefore) hstraddles.2
      · exact not_lt_of_ge hafter hstraddles.1

theorem separated_iff_outdatedEnqueuesSeparated :
    Separated (deliveries.map Delivery.registerEvent) ↔
      OutdatedEnqueuesSeparated deliveries := by
  have hinsert : (∃ i, Event.insert i ∈ deliveries.map Delivery.registerEvent) ↔
      ∃ d ∈ deliveries, ∃ item request, d.event = .enqueue item request := by
    constructor
    · rintro ⟨i, hi⟩
      obtain ⟨d, hd, item, request, hevent, -⟩ := insert_mem_map_iff.mp hi
      exact ⟨d, hd, item, request, hevent⟩
    · rintro ⟨d, hd, item, request, hevent⟩
      obtain ⟨i, -, hi⟩ := exists_insert_of_enqueue hd hevent
      exact ⟨i, hi⟩
  simp only [Separated, OutdatedEnqueuesSeparated, hinsert, admitted_iff_someEnqueueSurvives,
    cutAt_iff_separatedAt]

end Register

/-- What the row decides after the deliveries is what the register holds. -/
theorem admits_deliverAll {projectId queueId : ℕ} {ownEvents : List LabelEvent} {db : Database}
    {row : MergeRequestRow} {deliveries : List Delivery}
    (hrow : db.mergeRequests.byId queueId = some row) (hfresh : row.requeueRequest = none)
    (haddress : ∀ d ∈ deliveries, d.Addresses projectId queueId row)
    (hids : (deliveries.filterMap Delivery.messageId).Nodup)
    (hown : ∀ d ∈ deliveries, ∀ eventAt p m, d.event = .cancel eventAt p m →
      LabelEvent.at eventAt ∉ ownEvents) :
    admits queueId ownEvents (deliverAll projectId queueId deliveries db) =
      (Register.run (deliveries.map Delivery.registerEvent)).live := by
  have hstart : row = row.withRequeue none := by
    cases row
    cases hfresh
    rfl
  rw [hstart] at hrow
  have hempty : Represents none .empty := trivial
  obtain ⟨saved, hsaved, hrepresents⟩ :=
    deliverAll_represents hrow hempty haddress hids (by simp [seenMessages])
  have hrun : Represents saved (Register.run (deliveries.map Delivery.registerEvent)) :=
    hrepresents
  rw [admits, hsaved]
  cases hregister : Register.run (deliveries.map Delivery.registerEvent) with
  | empty =>
      rw [hregister] at hrun
      cases saved with
      | none => rfl
      | some request => exact hrun.elim
  | inserted i =>
      rw [hregister] at hrun
      cases saved with
      | none => exact hrun.elim
      | some request =>
          obtain ⟨⟨a, hintent⟩, -⟩ := hrun
          simp [MergeRequestRow.withRequeue, requeueIsCancelled, Register.live,
            Requeue.cancelledEvents_of_enqueue hintent]
  | deleted c =>
      rw [hregister] at hrun
      cases saved with
      | none => exact hrun.elim
      | some request =>
          obtain ⟨⟨a, hintent⟩, -⟩ := hrun
          obtain ⟨d, hd, p, m, hcancel, -⟩ :=
            delete_mem_map_iff.mp (Register.delete_mem_of_run_eq_deleted hregister)
          have hforeign := hown d hd c.lo p m hcancel
          simp [MergeRequestRow.withRequeue, requeueIsCancelled, Register.live,
            Requeue.cancelledEvents_of_cancel hintent, hforeign]

/-- Every order of delivery decides as the source times say, exactly when the
outdated enqueues are separated from a later cancellation. -/
theorem requeue_decision_order_independent_iff {projectId queueId : ℕ}
    {ownEvents : List LabelEvent} {db : Database} {row : MergeRequestRow}
    {deliveries : List Delivery}
    (hrow : db.mergeRequests.byId queueId = some row) (hfresh : row.requeueRequest = none)
    (haddress : ∀ d ∈ deliveries, d.Addresses projectId queueId row)
    (hids : (deliveries.filterMap Delivery.messageId).Nodup)
    (hown : ∀ d ∈ deliveries, ∀ eventAt p m, d.event = .cancel eventAt p m →
      LabelEvent.at eventAt ∉ ownEvents) :
    (∀ order : List Delivery, order.Perm deliveries →
        (admits queueId ownEvents (deliverAll projectId queueId order db) = true ↔
          SomeEnqueueSurvives deliveries)) ↔
      OutdatedEnqueuesSeparated deliveries := by
  rw [← separated_iff_outdatedEnqueuesSeparated,
    ← Register.run_live_iff_admitted_iff_separated, admitted_iff_someEnqueueSurvives]
  have hdecides : ∀ order : List Delivery, order.Perm deliveries →
      admits queueId ownEvents (deliverAll projectId queueId order db) =
        (Register.run (order.map Delivery.registerEvent)).live := by
    intro order hperm
    refine admits_deliverAll hrow hfresh (fun d hd ↦ haddress d (hperm.mem_iff.mp hd)) ?_
      (fun d hd ↦ hown d (hperm.mem_iff.mp hd))
    exact (hperm.filterMap _).nodup_iff.mpr hids
  constructor
  · intro horder events hperm
    have hmapped := congrFun (congrFun (List.eq_map_comp_perm Delivery.registerEvent) events)
      deliveries
    obtain ⟨order, rfl, horderPerm⟩ := hmapped.mpr hperm
    rw [← hdecides order horderPerm]
    exact horder order horderPerm
  · intro hevents order hperm
    rw [hdecides order hperm]
    exact hevents _ (hperm.map _)

theorem millisecond_pos : (0 : ℤ) < 1000 := by decide

theorem second_pos : (0 : ℤ) < 1000000 := by decide

/-- A label removed at 10.5 s, reported to the millisecond. -/
def fineCancel : Delivery where
  event := .cancel 10500000 1000 (some "fine")
  allowActive := true
  token := 1
  precision_pos := fun _ _ ↦ millisecond_pos

/-- A label removed in the same second, reported to the second. -/
def coarseCancel : Delivery where
  event := .cancel 10000000 1000000 (some "coarse")
  allowActive := true
  token := 2
  precision_pos := fun _ _ ↦ second_pos

/-- A label added at `start`, reported to the millisecond. -/
def fineEnqueue (start : ℤ) : Delivery where
  event := .enqueue (rowToQueueItem sampleRow)
    { clock := { requestedAt := some start, precisionUs := 1000 }
      triggers := ["merge_queue"]
      isHotfix := false
      messageId := some "enqueue" }
  allowActive := true
  token := 3
  precision_pos := fun _ _ ↦ millisecond_pos

/-- Two overlapping cancellations and an enqueue at `start`. -/
def labelRace (start : ℤ) : List Delivery := [fineCancel, coarseCancel, fineEnqueue start]

theorem labelRace_addresses (start : ℤ) :
    ∀ d ∈ labelRace start, d.Addresses 1 1 sampleRow := by
  simp only [labelRace, List.forall_mem_cons, List.not_mem_nil, false_implies, implies_true,
    and_true]
  refine ⟨⟨rfl, ?_⟩, ⟨rfl, ?_⟩, ⟨rfl, ?_⟩⟩ <;> rintro item request ⟨⟩
  rfl

theorem labelRace_enqueue {start : ℤ} {d : Delivery} (hd : d ∈ labelRace start)
    {item : QueueItem} {request : EnqueueRequest} (hevent : d.event = .enqueue item request) :
    request.clock = ⟨some start, 1000⟩ := by
  simp only [labelRace, List.mem_cons, List.not_mem_nil, or_false] at hd
  rcases hd with rfl | rfl | rfl <;> cases hevent
  rfl

theorem labelRace_cancel {start : ℤ} {d : Delivery} (hd : d ∈ labelRace start) {eventAt p : ℤ}
    {m : Option String} (hevent : d.event = .cancel eventAt p m) :
    (eventAt = 10500000 ∧ p = 1000) ∨ (eventAt = 10000000 ∧ p = 1000000) := by
  simp only [labelRace, List.mem_cons, List.not_mem_nil, or_false] at hd
  rcases hd with rfl | rfl | rfl <;> cases hevent
  · exact Or.inl ⟨rfl, rfl⟩
  · exact Or.inr ⟨rfl, rfl⟩

/-- An enqueue that ends before the second of both cancellations is dropped in
every order. -/
theorem requeue_decision_before_both_cancels :
    OutdatedEnqueuesSeparated (labelRace 9000000) ∧
      ∀ order : List Delivery, order.Perm (labelRace 9000000) →
        (admits 1 [] (deliverAll 1 1 order sampleDatabase) = true ↔
          SomeEnqueueSurvives (labelRace 9000000)) := by
  have hseparated : OutdatedEnqueuesSeparated (labelRace 9000000) := by
    refine fun _ ↦ Or.inr ⟨10000000, ?_, ?_, ?_⟩
    · intro d hd item request hevent
      simp [labelRace_enqueue hd hevent, definitelyBefore]
    · exact ⟨coarseCancel, by simp [labelRace], 10000000, 1000000, some "coarse", rfl, le_rfl⟩
    · intro d hd eventAt p m hevent
      rcases labelRace_cancel hd hevent with ⟨rfl, rfl⟩ | ⟨rfl, rfl⟩ <;> simp
  have hrow : sampleDatabase.mergeRequests.byId 1 = some sampleRow := by decide
  exact ⟨hseparated, (requeue_decision_order_independent_iff hrow rfl (labelRace_addresses _)
    (by decide) (by simp)).mpr hseparated⟩

/-- The coarse cancellation overlaps the saved one and moves the saved clock
back, so that an enqueue older than the first cancellation is admitted. -/
theorem requeue_decision_depends_on_delivery :
    ¬ ∀ (projectId queueId : ℕ) (ownEvents : List LabelEvent) (db : Database)
        (row : MergeRequestRow) (deliveries : List Delivery),
        db.mergeRequests.byId queueId = some row → row.requeueRequest = none →
        (∀ d ∈ deliveries, d.Addresses projectId queueId row) →
        (deliveries.filterMap Delivery.messageId).Nodup →
        (∀ d ∈ deliveries, ∀ eventAt p m, d.event = .cancel eventAt p m →
          LabelEvent.at eventAt ∉ ownEvents) →
        ∀ order : List Delivery, order.Perm deliveries →
          (admits queueId ownEvents (deliverAll projectId queueId order db) = true ↔
            SomeEnqueueSurvives deliveries) := by
  intro hclaim
  have hdecision := hclaim 1 1 [] sampleDatabase sampleRow (labelRace 10200000) (by decide) rfl
    (labelRace_addresses _) (by decide) (by simp) (labelRace 10200000) (List.Perm.refl _)
  have hadmitted : admits 1 [] (deliverAll 1 1 (labelRace 10200000) sampleDatabase) = true := by
    decide
  obtain ⟨d, hd, item, request, hevent, hclear⟩ := hdecision.mp hadmitted
  have hclock := labelRace_enqueue hd hevent
  have hlate := hclear fineCancel (by simp [labelRace]) 10500000 1000 (some "fine") rfl
    10200000 (by rw [hclock])
  rw [hclock] at hlate
  exact absurd hlate (by decide)

end MergeQueue
