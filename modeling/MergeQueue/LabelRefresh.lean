import MergeQueue.RequeueTransfer

/-!
# Labels beside an admission

A saved request keeps two clocks: the one of its admission and the one of its label
snapshot.  A snapshot that arrives later refreshes the labels and leaves the admission
alone, and two enqueues that overlap come to the same request in either order.
-/

namespace MergeQueue

open QueueManager

/-! ## The frame of a refresh -/

/-- At most the labels and the label clock of the request changed, and no desired trigger
was lost. -/
def LabelsOnly (saved pending : Requeue) : Prop :=
  ∃ old labels clock, saved.intent = .enqueue old ∧ old.triggers ⊆ labels ∧
    pending =
      { saved with
        intent := .enqueue
          { old with params := { old.params with labels }, labelSnapshot := clock } }

/-- The labels of the snapshot `source` are older than the saved ones. -/
def Outdated (saved : Requeue) (source : SourceClock) : Prop :=
  ∃ old start boundary, saved.intent = .enqueue old ∧ source.requestedAt = some start ∧
    old.labelSnapshot.requestedAt = some boundary ∧ start + source.precisionUs ≤ boundary

theorem subset_fromkeys_append_left (triggers labels : List String) :
    triggers ⊆ fromkeys (triggers ++ labels) := by
  intro trigger htrigger
  simp only [fromkeys, List.mem_eraseDups, List.mem_append]
  exact Or.inl htrigger

theorem labelsOnly_of_refreshedRequeue {saved pending : Requeue} {labels : List String}
    {source : SourceClock} (h : refreshedRequeue saved labels source = some pending) :
    LabelsOnly saved pending := by
  cases hintent : saved.intent with
  | cancel eventAt admission => simp [refreshedRequeue, hintent] at h
  | enqueue old =>
      simp only [refreshedRequeue, hintent] at h
      have htriggers := subset_fromkeys_append_left old.triggers labels
      split_ifs at h
      · cases h
        refine ⟨old, _, _, hintent, fun trigger htrigger ↦ ?_, rfl⟩
        simp only [fromkeys, List.mem_eraseDups, List.mem_append] at htriggers ⊢
        exact Or.inr (Or.inl htrigger)
      · cases h
        exact ⟨old, _, _, hintent, htriggers, rfl⟩

theorem refreshedRequeue_of_outdated {saved : Requeue} {source : SourceClock}
    (h : Outdated saved source) (labels : List String) :
    refreshedRequeue saved labels source = none := by
  obtain ⟨old, start, boundary, hintent, hstart, hboundary, hbefore⟩ := h
  have horder : compareEvent source old.labelSnapshot < 0 := by
    simp [compareEvent, hstart, hboundary, definitelyBefore, hbefore]
  simp only [refreshedRequeue, hintent, if_pos horder]

/-- A refresh of the row `queueId` with the snapshot `source` made `db'` of `db`: no row came or
went, and of one row at most the labels beside its admission changed. -/
structure RefreshesOnly (queueId : ℕ) (source : SourceClock) (db db' : Database) : Prop where
  history : db'.history = db.history
  nextId : db'.mergeRequests.nextId = db.mergeRequests.nextId
  rows : ∃ f : MergeRequestRow → MergeRequestRow,
    db'.mergeRequests.rows = db.mergeRequests.rows.map f ∧
      ∀ r, f r = r ∨ (r.id = queueId ∧ ∃ saved pending, r.requeueRequest = some saved ∧
        ¬Outdated saved source ∧ LabelsOnly saved pending ∧
        f r = { r with requeueRequest := some pending })

theorem RefreshesOnly.refl (queueId : ℕ) (source : SourceClock) (db : Database) :
    RefreshesOnly queueId source db db :=
  ⟨rfl, rfl, id, by simp, fun _ ↦ Or.inl rfl⟩

theorem refreshRequeueLabels_refreshesOnly (projectId queueId : ℕ) (labels : List String)
    (eventAt : Option ℤ) (precisionUs : ℤ) (allowActive : Bool) (db : Database) :
    ∃ done db', refreshRequeueLabels projectId queueId labels eventAt precisionUs allowActive db =
        .ok (done, db') ∧
      RefreshesOnly queueId { requestedAt := eventAt, precisionUs } db db' := by
  unfold refreshRequeueLabels
  cases hfind : db.mergeRequests.rows.find? (mayWriteRequeue projectId queueId allowActive) with
  | none => exact ⟨false, db, rfl, RefreshesOnly.refl _ _ _⟩
  | some row =>
      cases hsaved : row.requeueRequest with
      | none => exact ⟨true, db, by simp only [hsaved], RefreshesOnly.refl _ _ _⟩
      | some saved =>
          simp only [hsaved]
          cases hpending :
              refreshedRequeue saved labels { requestedAt := eventAt, precisionUs } with
          | none => exact ⟨true, db, rfl, RefreshesOnly.refl _ _ _⟩
          | some pending =>
              have hmay := List.find?_some hfind
              have hany : (db.mergeRequests.rows.any fun r ↦
                  mayWriteRequeue projectId queueId allowActive r &&
                    r.requeueRequest = some saved) = true :=
                List.any_eq_true.mpr ⟨row, List.mem_of_find?_eq_some hfind, by simp [hmay, hsaved]⟩
              simp only [replaceRequeue, hany, if_true]
              refine ⟨true, _, rfl, rfl, rfl, _, rfl, fun r ↦ ?_⟩
              by_cases hhit : (mayWriteRequeue projectId queueId allowActive r &&
                  r.requeueRequest = some saved) = true
              · rw [if_pos hhit]
                simp only [Bool.and_eq_true, decide_eq_true_eq] at hhit
                refine Or.inr ⟨(requestsOwnRow_of_mayWriteRequeue hhit.1).2, saved, pending, hhit.2,
                  fun houtdated ↦ ?_, labelsOnly_of_refreshedRequeue hpending, rfl⟩
                rw [refreshedRequeue_of_outdated houtdated labels] at hpending
                cases hpending
              · exact Or.inl (if_neg hhit)

/-! ## Two enqueues that overlap -/

/-- The clock of the labels that the request brings. -/
def EnqueueRequest.labelSource (request : EnqueueRequest) : SourceClock :=
  request.labelSnapshot.getD request.clock

/-- The interval that a clock shows, if it shows one. -/
def SourceClock.interval (clock : SourceClock) : Option (ℤ × ℤ) :=
  clock.requestedAt.map fun start ↦ (start, clock.precisionUs)

/-- The two requests ask for the same lifecycle. -/
structure SameAdmission (r s : Requeue) : Prop where
  admissions : ∃ a b, r.intent = .enqueue a ∧ s.intent = .enqueue b ∧
    (∀ trigger, trigger ∈ a.triggers ↔ trigger ∈ b.triggers) ∧
    (∀ label, label ∈ a.params.labels ↔ label ∈ b.params.labels) ∧
    a.params.isHotfix = b.params.isHotfix
  interval : r.clock.interval = s.clock.interval

section Enqueues

variable {a b : EnqueueRequest} {p q : RequeueParams} {token : Uuid} {saved merged : Requeue}

theorem compareEvent_swap {x y : SourceClock}
    (h : ¬(compareEvent x y < 0 ∧ compareEvent y x < 0)) :
    compareEvent y x = -compareEvent x y := by
  obtain ⟨_ | start, m⟩ := x
  · simp
  obtain ⟨_ | old, n⟩ := y
  · simp
  simp only [compareEvent_some] at h ⊢
  split_ifs at h ⊢ <;> simp_all

theorem interval_preserveUncertainty_comm (x y : SourceClock) :
    (preserveUncertainty x y).interval = (preserveUncertainty y x).interval := by
  obtain ⟨_ | start, m⟩ := x
  · obtain ⟨_ | old, n⟩ := y <;> rfl
  obtain ⟨_ | old, n⟩ := y
  · rfl
  simp only [preserveUncertainty_some, min_comm old start, max_comm (old + n)]

theorem mergeRequeue_of_written {previous : Option Requeue}
    (h : writtenRequeue (.enqueue b q) previous token = some merged) :
    merged.clock = (mergeRequeue (.enqueue b q) previous
        (compareEvent b.clock (savedClock previous))).clock ∧
      merged.intent = (mergeRequeue (.enqueue b q) previous
        (compareEvent b.clock (savedClock previous))).intent := by
  simp only [writtenRequeue] at h
  split at h
  · cases h
  · split at h
    · cases h
    · split at h
      · cases h
      · cases h
        exact ⟨rfl, rfl⟩

/-- What is saved of the first enqueue. -/
theorem firstEnqueue (h : writtenRequeue (.enqueue a p) none token = some saved) :
    saved.clock = a.clock ∧ ∃ old, saved.intent = .enqueue old ∧ old.triggers = a.triggers ∧
      old.params.isHotfix = p.isHotfix ∧ old.labelSnapshot = a.labelSource ∧
      old.params.labels = fromkeys (a.triggers ++ p.labels) := by
  obtain ⟨hclock, hintent⟩ := mergeRequeue_of_written h
  simp only [mergeRequeue, savedClock, compareEvent_none_right, Option.bind_none, if_true,
    Option.isSome_none, Bool.false_eq_true, if_false, requeueLabelSnapshot] at hclock hintent
  exact ⟨hclock, _, hintent, rfl, rfl, rfl, rfl⟩

/-- An enqueue that overlaps the saved one is joined with it. -/
theorem secondEnqueue {old : Admission} (hclock : saved.clock = a.clock)
    (hintent : saved.intent = .enqueue old) (htriggers : old.triggers = a.triggers)
    (hhotfix : old.params.isHotfix = p.isHotfix) (hsnapshot : old.labelSnapshot = a.labelSource)
    (hlabels : old.params.labels = fromkeys (a.triggers ++ p.labels))
    (hoverlap : compareEvent b.clock a.clock = 0)
    (h : writtenRequeue (.enqueue b q) (some saved) token = some merged) :
    merged.clock = preserveUncertainty b.clock a.clock ∧
      ∃ new, merged.intent = .enqueue new ∧
        (∀ trigger, trigger ∈ new.triggers ↔ trigger ∈ a.triggers ∨ trigger ∈ b.triggers) ∧
        new.params.isHotfix = (p.isHotfix || q.isHotfix) ∧
        ∀ label, label ∈ new.params.labels ↔
          (label ∈ a.triggers ∨ label ∈ b.triggers) ∨
          (compareEvent b.labelSource a.labelSource ≤ 0 ∧ label ∈ p.labels) ∨
          (0 ≤ compareEvent b.labelSource a.labelSource ∧ label ∈ q.labels) := by
  obtain ⟨hmergedClock, hmergedIntent⟩ := mergeRequeue_of_written h
  have hlive : (some saved).bind Requeue.liveAdmission = some old := by
    simp [Requeue.liveAdmission, hintent]
  simp only [mergeRequeue, savedClock, hclock, hoverlap, if_true, hlive, Option.isSome_some,
    requeueLabelSnapshot] at hmergedClock hmergedIntent
  refine ⟨hmergedClock, _, hmergedIntent, fun trigger ↦ ?_, ?_, fun label ↦ ?_⟩
  · simp [fromkeys, htriggers]
  · simp [hhotfix]
  · have hsource : compareEvent (b.labelSnapshot.getD b.clock) old.labelSnapshot =
        compareEvent b.labelSource a.labelSource := by rw [hsnapshot]; rfl
    simp only [hsource]
    by_cases hbefore : compareEvent b.labelSource a.labelSource < 0
    · have hle : compareEvent b.labelSource a.labelSource ≤ 0 := hbefore.le
      simp only [if_pos hbefore, fromkeys, List.mem_eraseDups, List.mem_append, htriggers,
        hlabels, hle, not_le.mpr hbefore, true_and, false_and, or_false]
      tauto
    · by_cases hsame : compareEvent b.labelSource a.labelSource = 0
      · simp only [hsame, lt_irrefl, if_false, if_true, fromkeys, List.mem_eraseDups,
          List.mem_append, htriggers, hlabels, le_refl, true_and]
        tauto
      · have hlt : 0 < compareEvent b.labelSource a.labelSource := by omega
        simp only [if_neg hbefore, if_neg hsame, fromkeys, List.mem_eraseDups, List.mem_append,
          htriggers, not_le.mpr hlt, hlt.le, true_and, false_and, false_or]

/-- Two overlapping enqueues come to the same request, whichever of them is saved first. -/
theorem sameAdmission_of_overlap {tokens : ℕ → Uuid} {savedA savedB ab ba : Requeue}
    (hoverlap : compareEvent a.clock b.clock = 0)
    (hlabels : ¬(compareEvent a.labelSource b.labelSource < 0 ∧
      compareEvent b.labelSource a.labelSource < 0))
    (ha : writtenRequeue (.enqueue a p) none (tokens 0) = some savedA)
    (hab : writtenRequeue (.enqueue b q) (some savedA) (tokens 1) = some ab)
    (hb : writtenRequeue (.enqueue b q) none (tokens 2) = some savedB)
    (hba : writtenRequeue (.enqueue a p) (some savedB) (tokens 3) = some ba) :
    SameAdmission ab ba := by
  have hoverlap' : compareEvent b.clock a.clock = 0 := by
    have hswap := @compareEvent_swap a.clock b.clock (by omega)
    omega
  have hswap := compareEvent_swap hlabels
  obtain ⟨hclockA, oldA, hintentA, htriggersA, hhotfixA, hsnapshotA, hlabelsA⟩ := firstEnqueue ha
  obtain ⟨hclockB, oldB, hintentB, htriggersB, hhotfixB, hsnapshotB, hlabelsB⟩ := firstEnqueue hb
  obtain ⟨hclockAB, newAB, hintentAB, htriggersAB, hhotfixAB, hlabelsAB⟩ :=
    secondEnqueue hclockA hintentA htriggersA hhotfixA hsnapshotA hlabelsA hoverlap' hab
  obtain ⟨hclockBA, newBA, hintentBA, htriggersBA, hhotfixBA, hlabelsBA⟩ :=
    secondEnqueue hclockB hintentB htriggersB hhotfixB hsnapshotB hlabelsB hoverlap hba
  refine ⟨⟨newAB, newBA, hintentAB, hintentBA, fun trigger ↦ ?_, fun label ↦ ?_, ?_⟩, ?_⟩
  · rw [htriggersAB, htriggersBA, or_comm]
  · have hbefore : compareEvent b.labelSource a.labelSource ≤ 0 ↔
        0 ≤ compareEvent a.labelSource b.labelSource := by omega
    have hafter : 0 ≤ compareEvent b.labelSource a.labelSource ↔
        compareEvent a.labelSource b.labelSource ≤ 0 := by omega
    rw [hlabelsAB, hlabelsBA, hbefore, hafter]
    tauto
  · rw [hhotfixAB, hhotfixBA, Bool.or_comm]
  · rw [hclockAB, hclockBA]
    exact interval_preserveUncertainty_comm _ _

end Enqueues

/-- A label refresh leaves the admission alone, one with an outdated snapshot leaves everything
alone, and two overlapping enqueues come to the same request in either order. -/
theorem refresh_keeps_admission_and_overlaps_commute :
    (∀ projectId queueId labels eventAt precisionUs allowActive db,
      ∃ done db', refreshRequeueLabels projectId queueId labels eventAt precisionUs allowActive db =
          .ok (done, db') ∧
        RefreshesOnly queueId { requestedAt := eventAt, precisionUs } db db' ∧
        ((∀ r ∈ db.mergeRequests.rows, r.id = queueId → ∀ saved ∈ r.requeueRequest,
          Outdated saved { requestedAt := eventAt, precisionUs }) →
            db'.mergeRequests.rows = db.mergeRequests.rows)) ∧
    ∀ (a b : EnqueueRequest) (p q : RequeueParams) (tokens : ℕ → Uuid)
      (savedA savedB ab ba : Requeue),
      compareEvent a.clock b.clock = 0 →
      ¬(compareEvent a.labelSource b.labelSource < 0 ∧
        compareEvent b.labelSource a.labelSource < 0) →
      writtenRequeue (.enqueue a p) none (tokens 0) = some savedA →
      writtenRequeue (.enqueue b q) (some savedA) (tokens 1) = some ab →
      writtenRequeue (.enqueue b q) none (tokens 2) = some savedB →
      writtenRequeue (.enqueue a p) (some savedB) (tokens 3) = some ba →
      SameAdmission ab ba := by
  refine ⟨fun projectId queueId labels eventAt precisionUs allowActive db ↦ ?_,
    fun a b p q tokens savedA savedB ab ba ↦ sameAdmission_of_overlap⟩
  obtain ⟨done, db', hout, hframe⟩ := refreshRequeueLabels_refreshesOnly projectId queueId labels
    eventAt precisionUs allowActive db
  refine ⟨done, db', hout, hframe, fun houtdated ↦ ?_⟩
  obtain ⟨f, hrows, hf⟩ := hframe.rows
  have hsame : ∀ r ∈ db.mergeRequests.rows, f r = r := by
    intro r hr
    rcases hf r with hsame | ⟨hid, saved, pending, hsaved, hcurrent, -⟩
    · exact hsame
    · exact absurd (houtdated r hr hid saved hsaved) hcurrent
  rw [hrows, List.map_congr_left hsame, List.map_id']

/-! ### A queue label and a hotfix label in the same second -/

def queueLabelled : EnqueueRequest where
  clock := { requestedAt := some 3000000, precisionUs := 1000000 }
  triggers := ["merge_queue"]
  isHotfix := false

def hotfixLabelled : EnqueueRequest where
  clock := { requestedAt := some 3500000, precisionUs := 1000 }
  triggers := ["hotfix"]
  isHotfix := true

/-- The parameters that an enqueue with the labels `labels` brings. -/
def labelledParams (labels : List String) (isHotfix : Bool) : RequeueParams :=
  { sampleParams with labels, isHotfix }

def savedAfter (request : EnqueueRequest) (params : RequeueParams) (previous : Option Requeue)
    (token : Uuid) : Option Requeue :=
  writtenRequeue (.enqueue request params) previous token

theorem refresh_keeps_admission_and_overlaps_commute_hotfix :
    ∃ ab ba,
      (savedAfter queueLabelled (labelledParams ["merge_queue", "docs"] false) none 0).bind (fun r ↦
        savedAfter hotfixLabelled (labelledParams ["hotfix"] true) (some r) 1) = some ab ∧
      (savedAfter hotfixLabelled (labelledParams ["hotfix"] true) none 2).bind (fun r ↦
        savedAfter queueLabelled (labelledParams ["merge_queue", "docs"] false) (some r) 3) =
          some ba ∧
      SameAdmission ab ba := by
  have hab : ((savedAfter queueLabelled (labelledParams ["merge_queue", "docs"] false) none 0).bind
      (fun r ↦ savedAfter hotfixLabelled (labelledParams ["hotfix"] true) (some r) 1)).isSome :=
    by decide +kernel
  have hba : ((savedAfter hotfixLabelled (labelledParams ["hotfix"] true) none 2).bind
      (fun r ↦ savedAfter queueLabelled (labelledParams ["merge_queue", "docs"] false)
        (some r) 3)).isSome := by decide +kernel
  obtain ⟨ab, hab⟩ := Option.isSome_iff_exists.mp hab
  obtain ⟨ba, hba⟩ := Option.isSome_iff_exists.mp hba
  obtain ⟨savedA, hsavedA, hwrittenAB⟩ := Option.bind_eq_some_iff.mp hab
  obtain ⟨savedB, hsavedB, hwrittenBA⟩ := Option.bind_eq_some_iff.mp hba
  exact ⟨ab, ba, hab, hba, refresh_keeps_admission_and_overlaps_commute.2 queueLabelled
    hotfixLabelled _ _ id savedA savedB ab ba (by decide) (by decide) hsavedA hwrittenAB hsavedB
    hwrittenBA⟩

end MergeQueue
