import MergeQueue.Tasks
import MergeQueue.PriorityActivation
import Mathlib.Data.List.Induction

/-!
# The cache of the active queue

The queue manager keeps the list that it read last for all projects.  Calls that
write clear it once their transaction is over, and a list that was read before
that is not kept.  Between the end of a transaction and the invalidation the event
loop may run other tasks.
-/

namespace MergeQueue

open Interleave (Program System Config Event Move Discipline Task)

structure QueueCache where
  activeQueue : Option (List QueueItem) := none
  version : ℕ := 0
  deriving DecidableEq

namespace QueueCache

def invalidate (cache : QueueCache) : QueueCache where
  activeQueue := none
  version := cache.version + 1

def setActiveQueue (items : List QueueItem) (version : Option ℕ) (cache : QueueCache) :
    QueueCache :=
  if version.any (· ≠ cache.version) then cache else { cache with activeQueue := some items }

theorem setActiveQueue_of_eq {cache : QueueCache} {items : List QueueItem} {version : ℕ}
    (h : version = cache.version) :
    cache.setActiveQueue items (some version) = { cache with activeQueue := some items } := by
  simp [setActiveQueue, h]

theorem setActiveQueue_of_ne {cache : QueueCache} {items : List QueueItem} {version : ℕ}
    (h : version ≠ cache.version) : cache.setActiveQueue items (some version) = cache := by
  simp [setActiveQueue, h]

end QueueCache

/-- What a fresh read for all projects gives. -/
def Database.activeItems (db : Database) : List QueueItem :=
  ((db.mergeRequests.rows.filter fun r : MergeRequestRow ↦ r.status.active).insertionSort
    queueOrder).map rowToQueueItem

/-- A call with this answer goes on to invalidate the cache. -/
def QueueOp.invalidates (db : Database) : (op : QueueOp) → op.Answer → Bool
  | addToQueue .., _ | clearPendingNotification .., _ | completeMr .., _ => true
  | removeFromQueue .., changed | updateMrState .., changed | updateHotfixStatus .., changed
  | markStaleWarningSent .., changed => changed
  | activatePriorities .., summary => summary.changed ≠ 0
  | prepareCompletion projectId mrIid request, _ =>
      (db.row projectId mrIid).any fun row ↦
        (request.queueId.all fun id ↦ row.id = id) && row.pendingCompletion.isNone
  | finalizeCompletion .., done => done
  | getQueueItem .., _ | getActiveQueue .., _ | getPendingCompletions .., _ | getStaleMrs .., _
  | getMrState .., _ | stageCompletionPositions .., _ | deferRequeue .., _ | cancelRequeue .., _
  | refreshRequeueLabels .., _ | saveCompletionProgress .., _ | cleanupOldEntries .., _ => false

/-- The calls that may change the queue rows and leave the cache as it is. -/
def QueueOp.forgets : QueueOp → Bool
  | stageCompletionPositions .. | deferRequeue .. | cancelRequeue .. | refreshRequeueLabels ..
  | saveCompletionProgress .. | cleanupOldEntries .. => true
  | updateHotfixStatus _ _ _ _ _ _ admissionKey _ => admissionKey.isSome
  | _ => false

section Forgets

open MergeRequestRepository QueueManager

theorem activatePriorities_unchanged {qm : QueueManager} {projectId : ℕ} {tokens : ℕ → Uuid}
    {db db' : Database} {summary : ActivationSummary}
    (h : qm.activatePriorities projectId tokens db = .ok (summary, db'))
    (hchanged : summary.changed = 0) : db'.mergeRequests = db.mergeRequests := by
  unfold QueueManager.activatePriorities QueueManager.activateFrom at h
  split at h
  · cases h
  · next policy _ =>
      obtain ⟨table, htable, h⟩ := bind_eq_ok.mp h
      cases h
      have hchanges : (selectActiveQueue db projectId).filter
          (activates policy.automationLabels) = [] := by
        simpa [activationPlan] using hchanged
      simp only [activationPlan, hchanges, List.map_nil, List.filter_nil] at htable ⊢
      cases htable
      exact stageFeedback_eq_self fun entry hentry ↦ feedback_of_settled hentry

theorem updateHotfixStatus_unchanged {qm : QueueManager} {projectId mrIid : ℕ}
    {isHotfix notifyPositions : Bool} {labels : List String}
    {expectedRevision : Option (ℕ × ℕ)} {isAutomated : Option Bool} {now : ℤ}
    {tokens : ℕ → Uuid} {db db' : Database}
    (h : qm.updateHotfixStatus projectId mrIid isHotfix labels expectedRevision notifyPositions
      none isAutomated now tokens db = .ok (false, db')) :
    db'.mergeRequests = db.mergeRequests := by
  unfold QueueManager.updateHotfixStatus at h
  obtain ⟨⟨hotfix, automated⟩, -, h⟩ := bind_eq_ok.mp h
  obtain ⟨table, hack, h⟩ := bind_eq_ok.mp h
  simp only [Pure.pure, Except.pure, Except.ok.injEq, Prod.mk.injEq] at h
  obtain ⟨hchanged, rfl⟩ := h
  cases hack
  simp only [hchanged, Bool.false_and, Bool.false_eq_true, if_false]
  exact KeyedTable.updateWhere_of_any_eq_false hchanged

/-- Every other call that changes the rows invalidates the cache. -/
theorem QueueOp.invalidates_of_changed {qm : QueueManager} {now : ℤ} {tokens : ℕ → Uuid}
    {op : QueueOp} {db db' : Database} {answer : op.Answer}
    (h : op.exec qm now tokens db = .ok (answer, db')) (hforgets : op.forgets = false)
    (hchanged : db'.mergeRequests ≠ db.mergeRequests) : op.invalidates db answer = true := by
  cases op with
  | addToQueue | clearPendingNotification | completeMr => rfl
  | getQueueItem | getActiveQueue | getPendingCompletions | getStaleMrs | getMrState =>
      cases h
      exact absurd rfl hchanged
  | stageCompletionPositions | deferRequeue | cancelRequeue | refreshRequeueLabels
  | saveCompletionProgress | cleanupOldEntries => cases hforgets
  | removeFromQueue | markStaleWarningSent =>
      cases h
      simp only [invalidates]
      by_contra hmiss
      apply hchanged
      apply KeyedTable.updateWhere_of_any_eq_false
      · exact fun _ ↦ ⟨rfl, rfl⟩
      · exact (Bool.not_eq_true _).mp hmiss
  | updateMrState =>
      exact (updateMrState_eq_ok h).1
  | updateHotfixStatus projectId mrIid isHotfix labels revision notify admissionKey =>
      cases admissionKey with
      | some key => cases hforgets
      | none =>
          cases answer with
          | true => rfl
          | false => exact absurd (updateHotfixStatus_unchanged h) hchanged
  | activatePriorities =>
      refine decide_eq_true fun hzero ↦ hchanged (activatePriorities_unchanged h hzero)
  | prepareCompletion projectId mrIid request =>
      rcases prepareCompletion_eq_ok h with
        ⟨rfl, -⟩ | ⟨rfl, -⟩ | ⟨row, hrow, hid, hfree, -⟩
      · exact absurd rfl hchanged
      · exact absurd rfl hchanged
      · simp only [invalidates, Option.mem_def.mp hrow, Option.any_some, hfree]
        simpa [Option.all_eq_true] using hid
  | finalizeCompletion =>
      rcases finalizeCompletion_eq_ok h with ⟨-, rfl⟩ | ⟨hdone, -⟩
      · exact absurd rfl hchanged
      · exact hdone

end Forgets

/-! ## The world of the cache -/

inductive CacheOp
  | look
  | select
  | refresh (items : List QueueItem) (version : ℕ)
  | commit (op : QueueOp)
  | invalidate
  deriving DecidableEq

/-- A transaction tells with its answer whether the call goes on to invalidate. -/
abbrev CacheOp.Answer : CacheOp → Type
  | look | refresh .. => Option (List QueueItem) × ℕ
  | select => List QueueItem
  | commit op => op.Answer × Bool
  | invalidate => Unit

/-- The last three fields are not part of the program: whether the active queue has
changed since the cache was last invalidated, the active queue after each
transaction so far, and which of these was the latest at the last invalidation. -/
structure CacheWorld where
  db : Database
  cache : QueueCache := {}
  unannounced : Bool := false
  moments : List (List QueueItem)
  since : ℕ := 0

structure CacheChoice where
  now : ℤ := 0
  tokens : ℕ → Uuid := fun i ↦ i
  fault : Option Fault := none

namespace CacheWorld

def start (db : Database) : CacheWorld where
  db
  moments := [db.activeItems]

def write (db : Database) (w : CacheWorld) : CacheWorld :=
  { w with
    db
    moments := w.moments ++ [db.activeItems]
    unannounced := w.unannounced || db.activeItems ≠ w.db.activeItems }

def invalidate (w : CacheWorld) : CacheWorld :=
  { w with
    cache := w.cache.invalidate
    unannounced := false
    since := w.moments.length - 1 }

def refreshed (items : List QueueItem) (version : ℕ) (w : CacheWorld) : CacheWorld :=
  { w with cache := w.cache.setActiveQueue items (some version) }

def exec (qm : QueueManager) (choice : CacheChoice) :
    (op : CacheOp) → CacheWorld → Option (Except PyError op.Answer × CacheWorld)
  | .look, w => some (.ok (w.cache.activeQueue, w.cache.version), w)
  | .select, w =>
      match choice.fault with
      | none => some (.ok w.db.activeItems, w)
      | some { error, .. } => some (.error error, w)
  | .refresh items version, w =>
      let w := w.refreshed items version
      some (.ok (w.cache.activeQueue, w.cache.version), w)
  | .commit op, w =>
      let outcome := op.exec qm choice.now choice.tokens w.db
      match choice.fault with
      | none =>
          some (outcome.mapError PyError.queue |>.map fun (answer, _) ↦
            (answer, op.invalidates w.db answer), w.write (committed w.db outcome))
      | some { error, applied } =>
          some (.error error, if applied then w.write (committed w.db outcome) else w)
  | .invalidate, w =>
      match choice.fault with
      | none => some (.ok (), w.invalidate)
      | some { error, .. } => some (.error error, w)

end CacheWorld

/-! ## The calls -/

/-- A task keeps what `get_active_queue` returned. -/
abbrev CacheProg (α : Type) :=
  Program CacheOp CacheOp.Answer (Option (List QueueItem)) PyError α

namespace CacheProg

def await (op : CacheOp) : CacheProg op.Answer := Program.call op

/-- The rounds that are left, with the items of the last one. -/
def refreshRounds : ℕ → ℕ → List QueueItem → CacheProg (List QueueItem)
  | 0, _, items => pure items
  | rounds + 1, version, _ => do
      let items ← await .select
      let (cachedAfter, version) ← await (.refresh items version)
      match cachedAfter with
      | some cached => pure cached
      | none => refreshRounds rounds version items

def getActiveQueue : CacheProg (List QueueItem) := do
  let (cached, version) ← await .look
  match cached with
  | some items => pure items
  | none => refreshRounds 2 version []

def operation (op : QueueOp) : CacheProg op.Answer := do
  let (answer, invalidates) ← await (.commit op)
  if invalidates then await .invalidate
  return answer

end CacheProg

inductive CacheTask
  | getActiveQueue
  | operation (op : QueueOp)
  deriving DecidableEq

def CacheTask.body : CacheTask → CacheProg Unit
  | getActiveQueue => do
      let items ← CacheProg.getActiveQueue
      Program.update fun _ ↦ some items
  | operation op => do
      let _ ← CacheProg.operation op

def cacheSystem (qm : QueueManager) :
    System CacheOp CacheOp.Answer (Option (List QueueItem)) PyError where
  World := CacheWorld
  Choice := CacheChoice
  Entry := CacheTask
  exec := fun _ ↦ CacheWorld.exec qm
  body := CacheTask.body
  init := fun _ ↦ none
  arrive := fun _ w ↦ w
  crash := fun w ↦ .start w.db

/-! ## What the tasks keep -/

namespace CacheWorld

/-- The items were read after the last invalidation, and are still the active queue if it
has not changed since then. -/
structure Recent (w : CacheWorld) (items : List QueueItem) : Prop where
  read : ∃ n, w.since ≤ n ∧ w.moments[n]? = some items
  current : w.unannounced = false → items = w.db.activeItems

structure Sound (w : CacheWorld) : Prop where
  latest : w.moments.getLast? = some w.db.activeItems
  since_lt : w.since < w.moments.length
  cached : ∀ items, w.cache.activeQueue = some items → w.Recent items

/-- How the tasks change the world: what happened stays, and a new version begins after
it. -/
structure Later (w w' : CacheWorld) : Prop where
  moments : w.moments <+: w'.moments
  version : w.cache.version ≤ w'.cache.version
  same : w.cache.version = w'.cache.version → w.since = w'.since ∧
    (w'.unannounced = false → w.unannounced = false ∧ w'.db.activeItems = w.db.activeItems)
  renewed : w.cache.version < w'.cache.version → w.moments.length ≤ w'.since + 1

variable {u v w w' : CacheWorld} {items : List QueueItem} {db : Database}

namespace Later

theorem refl (w : CacheWorld) : w.Later w :=
  ⟨List.prefix_rfl, le_rfl, fun _ ↦ ⟨rfl, fun h ↦ ⟨h, rfl⟩⟩, fun h ↦ absurd h (lt_irrefl _)⟩

theorem trans (huv : u.Later v) (hvw : v.Later w) : u.Later w := by
  have hlength := huv.moments.length_le
  have huv' := huv.version
  have hvw' := hvw.version
  refine ⟨huv.moments.trans hvw.moments, huv'.trans hvw', fun hsame ↦ ?_, fun hlt ↦ ?_⟩
  · obtain ⟨hsince, hback⟩ := huv.same (by omega)
    obtain ⟨hsince', hback'⟩ := hvw.same (by omega)
    refine ⟨hsince.trans hsince', fun h ↦ ?_⟩
    obtain ⟨hv, hactive'⟩ := hback' h
    obtain ⟨hu, hactive⟩ := hback hv
    exact ⟨hu, hactive'.trans hactive⟩
  · rcases hvw'.lt_or_eq with hvw' | hvw'
    · have := hvw.renewed hvw'
      omega
    · have := huv.renewed (by omega)
      have := (hvw.same hvw').1
      omega

end Later

theorem getElem?_of_later (h : w.Later w') {n : ℕ} (hn : w.moments[n]? = some items) :
    w'.moments[n]? = some items := by
  obtain ⟨rest, hrest⟩ := h.moments
  obtain ⟨hlt, -⟩ := List.getElem?_eq_some_iff.mp hn
  rw [← hrest, List.getElem?_append_left hlt, hn]

theorem Recent.later (h : w.Recent items) (hlater : w.Later w')
    (hsame : w.cache.version = w'.cache.version) : w'.Recent items := by
  obtain ⟨hsince, hback⟩ := hlater.same hsame
  obtain ⟨n, hn, hitems⟩ := h.read
  refine ⟨⟨n, hsince ▸ hn, getElem?_of_later hlater hitems⟩, fun hquiet ↦ ?_⟩
  obtain ⟨hquiet, hactive⟩ := hback hquiet
  rw [hactive]
  exact h.current hquiet

theorem Sound.getElem?_latest (h : w.Sound) :
    w.moments[w.moments.length - 1]? = some w.db.activeItems := by
  rw [← List.getLast?_eq_getElem?]
  exact h.latest

theorem Sound.recent (h : w.Sound) : w.Recent w.db.activeItems :=
  ⟨⟨w.moments.length - 1, Nat.le_sub_one_of_lt h.since_lt, h.getElem?_latest⟩, fun _ ↦ rfl⟩

theorem sound_start (db : Database) : (start db).Sound :=
  ⟨rfl, Nat.zero_lt_one, fun _ h ↦ by cases h⟩

/-! ### Transactions and invalidations -/

theorem Later.write (w : CacheWorld) (db : Database) : w.Later (w.write db) := by
  refine ⟨List.prefix_append _ _, le_rfl, fun _ ↦ ⟨rfl, fun hquiet ↦ ?_⟩, fun h ↦
    absurd h (lt_irrefl _)⟩
  simpa [CacheWorld.write] using hquiet

theorem Sound.write (h : w.Sound) (db : Database) : (w.write db).Sound := by
  refine ⟨by simp [CacheWorld.write], ?_, fun items hitems ↦ ?_⟩
  · have := h.since_lt
    simp only [CacheWorld.write, List.length_append]
    omega
  · exact (h.cached items hitems).later (Later.write w db) rfl

theorem Later.invalidate (h : w.Sound) : w.Later w.invalidate := by
  have := h.since_lt
  refine ⟨List.prefix_rfl, Nat.le_succ _, fun hsame ↦ ?_, fun _ ↦ ?_⟩
  · exact absurd hsame (Nat.ne_of_lt (Nat.lt_succ_self _))
  · simp only [CacheWorld.invalidate]
    omega

theorem Sound.invalidate (h : w.Sound) : w.invalidate.Sound := by
  have := h.since_lt
  refine ⟨h.latest, ?_, fun items hitems ↦ ?_⟩
  · simp only [CacheWorld.invalidate]
    omega
  · cases hitems

/-! ### Filling the cache -/

theorem version_refreshed (items : List QueueItem) (version : ℕ) (w : CacheWorld) :
    (w.refreshed items version).cache.version = w.cache.version := by
  simp only [refreshed, QueueCache.setActiveQueue]
  split_ifs <;> rfl

theorem Later.refreshed (items : List QueueItem) (version : ℕ) (w : CacheWorld) :
    w.Later (w.refreshed items version) := by
  have hversion := version_refreshed items version w
  refine ⟨List.prefix_rfl, hversion.ge, fun _ ↦ ⟨rfl, fun h ↦ ⟨h, rfl⟩⟩, fun h ↦ ?_⟩
  exact absurd h (hversion ▸ lt_irrefl _)

theorem Sound.refreshed {version : ℕ} (h : w.Sound)
    (hitems : version = w.cache.version → w.Recent items) :
    (w.refreshed items version).Sound := by
  have hlater := Later.refreshed items version w
  have hsame := (version_refreshed items version w).symm
  refine ⟨h.latest, h.since_lt, fun cached hcached ↦ ?_⟩
  by_cases hversion : version = w.cache.version
  · rw [CacheWorld.refreshed, QueueCache.setActiveQueue_of_eq hversion] at hcached
    cases hcached
    exact (hitems hversion).later hlater hsame
  · rw [CacheWorld.refreshed, QueueCache.setActiveQueue_of_ne hversion] at hcached
    exact (h.cached cached hcached).later hlater hsame

/-! ### What a call knows -/

/-- A list that was the active queue at some moment from the number `first` on. -/
def Served (first : ℕ) (items : List QueueItem) (w : CacheWorld) : Prop :=
  ∃ n, first ≤ n ∧ w.moments[n]? = some items

/-- The version was looked up at a moment from the number `first` on. -/
structure Looked (first version : ℕ) (w : CacheWorld) : Prop where
  version_le : version ≤ w.cache.version
  first_lt : first < w.moments.length
  renewed : version < w.cache.version → first ≤ w.since

structure Holds (first version : ℕ) (items : List QueueItem) (w : CacheWorld) : Prop where
  looked : w.Looked first version
  served : w.Served first items
  recent : version = w.cache.version → w.Recent items

variable {first version : ℕ}

theorem Served.later (h : w.Served first items) (hlater : w.Later w') : w'.Served first items := by
  obtain ⟨n, hn, hitems⟩ := h
  exact ⟨n, hn, getElem?_of_later hlater hitems⟩

theorem Looked.later (h : w.Looked first version) (hlater : w.Later w') :
    w'.Looked first version := by
  have hle := h.version_le
  have hlt := h.first_lt
  have hversion := hlater.version
  refine ⟨hle.trans hversion, hlt.trans_le hlater.moments.length_le, fun hnew ↦ ?_⟩
  rcases hversion.lt_or_eq with hversion | hversion
  · have := hlater.renewed hversion
    omega
  · have := h.renewed (by omega)
    have := (hlater.same hversion).1
    omega

theorem Holds.later (h : w.Holds first version items) (hlater : w.Later w') :
    w'.Holds first version items := by
  refine ⟨h.looked.later hlater, h.served.later hlater, fun hsame ↦ ?_⟩
  have hle := h.looked.version_le
  have hversion := hlater.version
  exact (h.recent (by omega)).later hlater (by omega)

theorem Looked.self (hfirst : first < w.moments.length) : w.Looked first w.cache.version :=
  ⟨le_rfl, hfirst, fun h ↦ absurd h (lt_irrefl _)⟩

theorem Sound.served (h : w.Sound) (hfirst : first < w.moments.length) :
    w.Served first w.db.activeItems :=
  ⟨w.moments.length - 1, Nat.le_sub_one_of_lt hfirst, h.getElem?_latest⟩

/-- What a fresh read gives may be held. -/
theorem Looked.holds (h : w.Looked first version) (hsound : w.Sound) :
    w.Holds first version w.db.activeItems :=
  ⟨h, hsound.served h.first_lt, fun _ ↦ hsound.recent⟩

/-- The cache gives back the items that were read, or items that were read under a
version which began after the version was looked up. -/
theorem Holds.served_refreshed {cached : List QueueItem} (h : w.Holds first version items)
    (hsound : w.Sound)
    (hcached : (w.refreshed items version).cache.activeQueue = some cached) :
    w.Served first cached := by
  by_cases hversion : version = w.cache.version
  · rw [refreshed, QueueCache.setActiveQueue_of_eq hversion] at hcached
    cases hcached
    exact h.served
  · rw [refreshed, QueueCache.setActiveQueue_of_ne hversion] at hcached
    obtain ⟨n, hn, hread⟩ := (hsound.cached cached hcached).read
    have hle := h.looked.version_le
    have := h.looked.renewed (by omega)
    exact ⟨n, by omega, hread⟩

end CacheWorld

/-! ## Every call serves a moment of its own -/

/-- A call that finds the cache filled starts when the active queue has not changed since
the cache was last invalidated. -/
def Announced {qm : QueueManager} (e : Event (cacheSystem qm)) : Prop :=
  e.op = .look → e.before.cache.activeQueue ≠ none → e.before.unannounced = false

instance {qm : QueueManager} (e : Event (cacheSystem qm)) : Decidable (Announced e) :=
  inferInstanceAs (Decidable (_ → _ → _))

def cacheDiscipline (qm : QueueManager) : Discipline (cacheSystem qm) where
  inv := CacheWorld.Sound
  rely := fun _ ↦ CacheWorld.Later
  allowed := Announced
  rely_refl := fun _ ↦ CacheWorld.Later.refl
  rely_trans := fun _ _ _ _ ↦ CacheWorld.Later.trans

namespace CacheProg

open CacheWorld (Sound Later Served Looked Holds)

variable {qm : QueueManager} {i first : ℕ} {entry : CacheTask}

theorem respects {e : Event (cacheSystem qm)} (hsound : e.after.Sound)
    (hlater : e.before.Later e.after) : (cacheDiscipline qm).Respects e :=
  ⟨hsound, fun _ _ ↦ hlater, trivial⟩

theorem safe_select (version : ℕ) :
    (await .select).Safe (cacheDiscipline qm) i entry (fun _ w ↦ w.Looked first version)
      (fun items _ w ↦ w.Holds first version items) fun _ _ _ ↦ True := by
  refine Program.Safe.call fun s w v hs hrely hsound choice answer v' hexec _ ↦ ?_
  simp only [cacheSystem, CacheWorld.exec] at hexec
  split at hexec <;> cases hexec
  · exact ⟨respects hsound (.refl v), (hs.later hrely).holds hsound⟩
  · exact ⟨respects hsound (.refl v), trivial⟩

theorem safe_refresh (items : List QueueItem) (version : ℕ) :
    (await (.refresh items version)).Safe (cacheDiscipline qm) i entry
      (fun _ w ↦ w.Holds first version items)
      (fun answer _ w ↦ w.Looked first answer.2 ∧ w.Served first (answer.1.getD items))
      fun _ _ _ ↦ True := by
  refine Program.Safe.call fun s w v hs hrely hsound choice answer v' hexec _ ↦ ?_
  have hholds : v.Holds first version items := hs.later hrely
  have hlater := Later.refreshed items version v
  cases hexec
  refine ⟨respects (hsound.refreshed hholds.recent) hlater,
    Looked.self (hholds.looked.later hlater).first_lt, ?_⟩
  cases hcached : (v.refreshed items version).cache.activeQueue with
  | none => exact hholds.served.later hlater
  | some cached => exact (hholds.served_refreshed hsound hcached).later hlater

theorem safe_refreshRounds (rounds version : ℕ) (items : List QueueItem) :
    (refreshRounds rounds version items).Safe (cacheDiscipline qm) i entry
      (fun _ w ↦ w.Looked first version ∧ (rounds = 0 → w.Served first items))
      (fun items _ w ↦ w.Served first items) fun _ _ _ ↦ True := by
  induction rounds generalizing version items with
  | zero => exact fun _ w hs ↦ hs.2 rfl
  | succ rounds ih =>
      refine Program.Safe.bind ((safe_select version).mono (fun _ _ h ↦ h.1) (fun _ _ _ h ↦ h)
        fun _ _ _ h ↦ h) fun items ↦ ?_
      refine Program.Safe.bind (safe_refresh items version) fun answer ↦ ?_
      obtain ⟨cached, version⟩ := answer
      cases cached with
      | some cached => exact fun _ w hs ↦ hs.2
      | none =>
          exact (ih version items).mono (fun _ _ hs ↦ ⟨hs.1, fun _ ↦ hs.2⟩) (fun _ _ _ h ↦ h)
            fun _ _ _ h ↦ h

/-- The lookup that starts a call: a list that the cache holds is the active queue now. -/
theorem safe_look :
    (await .look).Safe (cacheDiscipline qm) i entry (fun _ w ↦ first < w.moments.length)
      (fun answer _ w ↦ w.Looked first answer.2 ∧ ∀ items, answer.1 = some items →
        w.Served first items) fun _ _ _ ↦ True := by
  refine Program.Safe.call fun s w v hs hrely hsound choice answer v' hexec hallowed ↦ ?_
  have hfirst : first < v.moments.length := hs.trans_le hrely.moments.length_le
  cases hexec
  refine ⟨respects hsound (.refl v), Looked.self hfirst, fun items hitems ↦ ?_⟩
  have hquiet := hallowed rfl (Option.ne_none_iff_exists'.mpr ⟨items, hitems⟩)
  rw [(hsound.cached items hitems).current hquiet]
  exact hsound.served hfirst

theorem safe_getActiveQueue :
    getActiveQueue.Safe (cacheDiscipline qm) i entry (fun _ w ↦ first < w.moments.length)
      (fun items _ w ↦ w.Served first items) fun _ _ _ ↦ True := by
  refine Program.Safe.bind safe_look fun answer ↦ ?_
  obtain ⟨cached, version⟩ := answer
  cases cached with
  | some items => exact fun _ w hs ↦ hs.2 items rfl
  | none =>
      exact (safe_refreshRounds 2 version []).mono (fun _ _ hs ↦ ⟨hs.1, fun h ↦ by cases h⟩)
        (fun _ _ _ h ↦ h) fun _ _ _ h ↦ h

theorem safe_commit (op : QueueOp) :
    (await (.commit op)).Safe (cacheDiscipline qm) i entry (fun _ _ ↦ True) (fun _ _ _ ↦ True)
      fun _ _ _ ↦ True := by
  refine Program.Safe.call fun s w v hs hrely hsound choice answer v' hexec _ ↦ ?_
  refine ⟨?_, by cases answer <;> trivial⟩
  simp only [cacheSystem, CacheWorld.exec] at hexec
  split at hexec
  · cases hexec
    exact respects (hsound.write _) (Later.write v _)
  · next applied _ =>
      cases hexec
      cases applied with
      | true => exact respects (hsound.write _) (Later.write v _)
      | false => exact respects hsound (.refl v)

theorem safe_invalidate :
    (await .invalidate).Safe (cacheDiscipline qm) i entry (fun _ _ ↦ True) (fun _ _ _ ↦ True)
      fun _ _ _ ↦ True := by
  refine Program.Safe.call fun s w v hs hrely hsound choice answer v' hexec _ ↦ ?_
  refine ⟨?_, by cases answer <;> trivial⟩
  simp only [cacheSystem, CacheWorld.exec] at hexec
  split at hexec <;> cases hexec
  · exact respects hsound.invalidate (Later.invalidate hsound)
  · exact respects hsound (.refl v)

theorem safe_operation (op : QueueOp) :
    (operation op).Safe (cacheDiscipline qm) i entry (fun _ _ ↦ True) (fun _ _ _ ↦ True)
      fun _ _ _ ↦ True := by
  refine Program.Safe.bind (safe_commit op) fun answer ↦ ?_
  obtain ⟨answer, invalidates⟩ := answer
  cases invalidates with
  | true => exact Program.Safe.bind safe_invalidate fun _ ↦ Program.Safe.ret fun _ _ h ↦ h
  | false => exact Program.Safe.ret fun _ _ h ↦ h

theorem safe_body (first : ℕ) (task : CacheTask) :
    task.body.Safe (cacheDiscipline qm) i entry (fun _ w ↦ first < w.moments.length)
      (fun _ s w ↦ task = .getActiveQueue → ∃ items, s = some items ∧ w.Served first items)
      fun _ _ _ ↦ True := by
  cases task with
  | getActiveQueue =>
      refine Program.Safe.bind safe_getActiveQueue fun items ↦ ?_
      exact Program.Safe.update fun _ _ h _ ↦ ⟨items, rfl, h⟩
  | operation op =>
      refine Program.Safe.bind ((safe_operation op).mono (fun _ _ _ ↦ trivial)
        (fun _ _ _ h ↦ h) fun _ _ _ h ↦ h) fun _ ↦ ?_
      exact Program.Safe.ret fun _ _ _ h ↦ by cases h

end CacheProg

theorem cacheDiscipline_sustained (qm : QueueManager) : (cacheDiscipline qm).Sustained where
  arrive := fun _ w hw ↦ ⟨hw, fun _ ↦ .refl w⟩
  body := fun task _ w hw ↦
    (CacheProg.safe_body w.since task _ w hw.since_lt).mono (fun _ _ _ _ ↦ trivial)
      fun _ _ _ _ ↦ trivial
  crash := fun w _ ↦ CacheWorld.sound_start w.db

/-! ## The moments of a run -/

section Moments

variable {qm : QueueManager} {c : Config (cacheSystem qm)}

theorem CacheWorld.exec_moments {choice : CacheChoice} {op : CacheOp}
    {w w' : CacheWorld} {answer : Except PyError op.Answer}
    (h : exec qm choice op w = some (answer, w')) :
    w'.moments = w.moments ∨ w'.moments = w.moments ++ [w'.db.activeItems] := by
  cases op with
  | look | refresh =>
      cases h
      exact Or.inl rfl
  | select | invalidate =>
      simp only [exec] at h
      split at h <;> cases h <;> exact Or.inl rfl
  | commit op =>
      simp only [exec] at h
      split at h
      · cases h
        exact Or.inr rfl
      · next applied _ =>
          cases h
          cases applied with
          | true => exact Or.inr rfl
          | false => exact Or.inl rfl

theorem moments_apply {move : Move (cacheSystem qm)} (hmove : move ≠ .crash) :
    (c.apply move).world.moments = c.world.moments ∨
      (c.apply move).world.moments =
        c.world.moments ++ [(c.apply move).world.db.activeItems] := by
  cases hevent : c.event move with
  | some e =>
      obtain ⟨choice, next, -, hexec, -, happly⟩ := Config.exists_of_event hevent
      rw [happly]
      exact CacheWorld.exec_moments hexec
  | none =>
      cases move with
      | start entry => exact Or.inl rfl
      | step i choice =>
          rw [Config.apply_step_of_event_eq_none hevent]
          exact Or.inl rfl
      | crash => exact absurd rfl hmove

/-- Each later moment is the active queue after some of the moves. -/
theorem exists_lapse_of_moments (hc : c.world.Sound) {moves : List (Move (cacheSystem qm))}
    (hmoves : ∀ move ∈ moves, move ≠ .crash) {n : ℕ} (hn : c.world.moments.length ≤ n + 1)
    {items : List QueueItem} (hitems : (c.run moves).world.moments[n]? = some items) :
    ∃ lapse, lapse <+: moves ∧ items = (c.run lapse).world.db.activeItems := by
  induction moves using List.reverseRecOn with
  | nil =>
      refine ⟨[], List.prefix_rfl, ?_⟩
      obtain ⟨hlt, -⟩ := List.getElem?_eq_some_iff.mp hitems
      have hlatest := hc.getElem?_latest
      rw [Config.run_nil] at hitems hlt
      rw [show n = c.world.moments.length - 1 by omega, hlatest] at hitems
      exact (Option.some.inj hitems).symm
  | append_singleton moves move ih =>
      have hmoves' : ∀ move ∈ moves, move ≠ .crash := fun move h ↦
        hmoves move (List.mem_append_left _ h)
      have hold : (c.run moves).world.moments[n]? = some items →
          ∃ lapse, lapse <+: moves ++ [move] ∧ items = (c.run lapse).world.db.activeItems := by
        intro h
        obtain ⟨lapse, hlapse, hread⟩ := ih hmoves' h
        exact ⟨lapse, hlapse.trans (List.prefix_append _ _), hread⟩
      rw [Config.run_append, Config.run_cons, Config.run_nil] at hitems
      rcases moments_apply (c := c.run moves) (hmoves move (by simp)) with h | h
      · exact hold (h ▸ hitems)
      · rw [h, List.getElem?_append] at hitems
        split at hitems
        · exact hold hitems
        · refine ⟨moves ++ [move], List.prefix_rfl, ?_⟩
          rw [Config.run_append, Config.run_cons, Config.run_nil]
          exact (List.mem_singleton.mp (List.mem_of_getElem? hitems))

end Moments

/-! ## The cache and the past -/

def cacheStart (qm : QueueManager) (db : Database) : Config (cacheSystem qm) where
  world := .start db

/-- Some operation has changed the queue rows and returned. -/
def ChangeReturned {qm : QueueManager} (c : Config (cacheSystem qm))
    (moves : List (Move (cacheSystem qm))) : Prop :=
  ∃ e ∈ c.events moves, e.after.db.mergeRequests ≠ e.before.db.mergeRequests ∧
    ∃ answer s, (c.run moves).threads[e.thread]? = some (e.entry, .done (.ok answer) s)

/-- A call for the whole queue which starts once a change has returned, and itself
returns, returns what a fresh read gives at some moment of the call. -/
def NeverServesThePast (qm : QueueManager) (db : Database)
    (moves : List (Move (cacheSystem qm))) : Prop :=
  ∀ before call choice during rest items,
    moves = before ++ .step call choice :: during ++ rest →
    ChangeReturned (cacheStart qm db) before →
    ((cacheStart qm db).run before).threads[call]? =
      some (.getActiveQueue, CacheTask.getActiveQueue.body none) →
    (∀ move ∈ during, move ≠ .crash) →
    ((cacheStart qm db).run (before ++ .step call choice :: during)).threads[call]? =
      some (.getActiveQueue, .done (.ok ()) (some items)) →
    ∃ lapse, lapse <+: .step call choice :: during ∧
      items = ((cacheStart qm db).run (before ++ lapse)).world.db.activeItems

theorem neverServesThePast_of_announced {qm : QueueManager} {db : Database}
    {moves : List (Move (cacheSystem qm))}
    (hannounced : ∀ e ∈ (cacheStart qm db).events moves, Announced e) :
    NeverServesThePast qm db moves := by
  rintro before call choice during rest items rfl - hstart hduring hreturn
  rw [Config.events_append, Config.events_append] at hannounced
  have hD := cacheDiscipline_sustained qm
  have hinit : (cacheStart qm db).Safe (cacheDiscipline qm) :=
    ⟨CacheWorld.sound_start db, by simp [cacheStart]⟩
  have hbefore := (hinit.run hD fun e he ↦
    hannounced e (List.mem_append_left _ (List.mem_append_left _ he))).2
  have hmoves : ∀ move ∈ .step call choice :: during, move ≠ .crash := by
    rw [List.forall_mem_cons]
    exact ⟨by simp, hduring⟩
  generalize hc : (cacheStart qm db).run before = c at hbefore hstart hannounced
  have hsound : c.world.Sound := hbefore.inv
  have hcall : CacheTask.getActiveQueue.body none |>.Safe (cacheDiscipline qm) call .getActiveQueue
      (fun _ s w ↦ ∃ items, s = some items ∧ w.Served (c.world.moments.length - 1) items)
      (fun _ _ _ ↦ True) c.world := by
    have hlt := hsound.since_lt
    exact (CacheProg.safe_body (c.world.moments.length - 1) .getActiveQueue none c.world
      (by omega)).mono (fun _ _ _ h ↦ h rfl) fun _ _ _ h ↦ h
  obtain ⟨task, htask, hsafe⟩ := hbefore.thread_run hD
    (fun _ _ w v ⟨items, hitems, hserved⟩ hlater ↦ ⟨items, hitems, hserved.later hlater⟩)
    (fun _ _ _ _ _ _ ↦ trivial) hstart hcall hmoves
    fun e he ↦ hannounced e (List.mem_append_left _ (List.mem_append_right _ he))
  rw [Config.run_append, hc] at hreturn
  cases htask.symm.trans hreturn
  obtain ⟨_, hsome, n, hn, hitems⟩ := hsafe
  cases hsome
  obtain ⟨lapse, hlapse, hread⟩ := exists_lapse_of_moments hsound hmoves (by omega) hitems
  exact ⟨lapse, hlapse, by rw [Config.run_append, hc]; exact hread⟩

/-! ## A call before and a call after an operation -/

/-- One call, the operation with its awaits, and one more call. -/
def callsAround (op : QueueOp) (awaits calls : ℕ) : List (Move (cacheSystem {})) :=
  let steps (thread n : ℕ) : List (Move (cacheSystem {})) := List.replicate n (.step thread {})
  .start .getActiveQueue :: steps 0 3 ++ .start (.operation op) :: steps 1 awaits ++
    .start .getActiveQueue :: steps 2 calls

def admitted : QueueOp := .updateMrState 1 7 .rebasing {}

def displaced : QueueOp := .stageCompletionPositions 1 [(7, 2)] 2

theorem neverServesThePast_around_admission :
    NeverServesThePast {} sampleDatabase (callsAround admitted 2 3) :=
  neverServesThePast_of_announced (by decide +kernel)

theorem changeReturned_displaced :
    ChangeReturned (cacheStart {} sampleDatabase) (callsAround displaced 1 0) := by
  refine ⟨((cacheStart {} sampleDatabase).events (callsAround displaced 1 0)).getLast (by decide),
    List.getLast_mem _, fun h ↦ ?_, (), none, rfl⟩
  have hrows := congrArg KeyedTable.rows h
  revert hrows
  decide +kernel

theorem staged_feedback_served_late :
    ¬ NeverServesThePast {} sampleDatabase (callsAround displaced 1 1) := by
  intro h
  obtain ⟨lapse, hlapse, hread⟩ := h (callsAround displaced 1 0) 2 {} [] []
    sampleDatabase.activeItems rfl changeReturned_displaced rfl (by simp) rfl
  rcases List.prefix_cons_iff.mp hlapse with rfl | ⟨_, rfl, hnil⟩
  · revert hread
    decide +kernel
  · obtain rfl := List.prefix_nil.mp hnil
    revert hread
    decide +kernel

end MergeQueue
