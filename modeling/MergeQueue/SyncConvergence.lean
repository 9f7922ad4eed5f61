import MergeQueue.PriorityActivation
import MergeQueue.RequeueTransfer
import MergeQueue.Serving
import MergeQueue.Lib.Cells

/-!
# A sync makes the queue agree with GitLab

A sync that runs alone is seen as changes of the rows of single merge requests: each of
its three loops changes the rows of the merge requests that it goes through, and no
other row but its feedback.
-/

namespace MergeQueue

open Interleave (Program Stage Updates)
open Interleave.Program (Finishes)
open QueueManager

/-! ## The merged listings -/

namespace QueueScheduler

theorem iids_putByIid (mrs : List MergeRequest) (mr : MergeRequest) :
    (putByIid mrs mr).map MergeRequest.iid =
      if mr.iid ∈ mrs.map MergeRequest.iid then mrs.map MergeRequest.iid
      else mrs.map MergeRequest.iid ++ [mr.iid] := by
  have hany : (mrs.any fun m ↦ m.iid = mr.iid) = true ↔ mr.iid ∈ mrs.map MergeRequest.iid := by
    simp
  unfold putByIid
  by_cases h : mr.iid ∈ mrs.map MergeRequest.iid
  · rw [if_pos (hany.mpr h), if_pos h, List.map_map]
    apply List.map_congr_left
    intro m _
    simp only [Function.comp_apply]
    split_ifs with hm
    · exact hm.symm
    · rfl
  · rw [if_neg (mt hany.mp h), if_neg h, List.map_append]
    rfl

theorem mem_putByIid {mrs : List MergeRequest} {mr m : MergeRequest} (h : m ∈ putByIid mrs mr) :
    m ∈ mrs ∨ m = mr := by
  unfold putByIid at h
  split_ifs at h
  · obtain ⟨m', hm', rfl⟩ := List.mem_map.mp h
    split_ifs
    · exact Or.inr rfl
    · exact Or.inl hm'
  · simpa using h

theorem nodup_putByIid {mrs : List MergeRequest} (mr : MergeRequest)
    (h : (mrs.map MergeRequest.iid).Nodup) : ((putByIid mrs mr).map MergeRequest.iid).Nodup := by
  rw [iids_putByIid]
  split_ifs with hmem
  · exact h
  · exact List.nodup_append.mpr ⟨h, List.nodup_singleton _, by
      intro a ha b hb
      rw [List.mem_singleton.mp hb]
      rintro rfl
      exact hmem ha⟩

/-- Putting listed merge requests one by one. -/
theorem foldl_putByIid (listed : List MergeRequest) {mrs : List MergeRequest}
    (h : (mrs.map MergeRequest.iid).Nodup) :
    ((listed.foldl putByIid mrs).map MergeRequest.iid).Nodup ∧
      (∀ m ∈ listed.foldl putByIid mrs, m ∈ mrs ∨ m ∈ listed) ∧
      ∀ iid, iid ∈ (listed.foldl putByIid mrs).map MergeRequest.iid ↔
        iid ∈ mrs.map MergeRequest.iid ∨ iid ∈ listed.map MergeRequest.iid := by
  induction listed generalizing mrs with
  | nil => exact ⟨h, fun m hm ↦ Or.inl hm, fun iid ↦ by simp⟩
  | cons mr listed ih =>
      obtain ⟨hnodup, hmem, hiids⟩ := ih (nodup_putByIid mr h)
      refine ⟨hnodup, fun m hm ↦ ?_, fun iid ↦ ?_⟩
      · rcases hmem m hm with hm | hm
        · rcases mem_putByIid hm with hm | rfl
          · exact Or.inl hm
          · exact Or.inr List.mem_cons_self
        · exact Or.inr (List.mem_cons_of_mem _ hm)
      · rw [List.foldl_cons, hiids, iids_putByIid, List.map_cons, List.mem_cons]
        split_ifs with hput
        · constructor
          · tauto
          · rintro (h | rfl | h)
            · exact Or.inl h
            · exact Or.inl hput
            · exact Or.inr h
        · simp only [List.mem_append, List.mem_singleton]
          tauto

theorem mergeListings_spec (queueLabelMrs hotfixLabelMrs : List MergeRequest) :
    ((mergeListings queueLabelMrs hotfixLabelMrs).map MergeRequest.iid).Nodup ∧
      (∀ m ∈ mergeListings queueLabelMrs hotfixLabelMrs,
        m ∈ queueLabelMrs ∨ m ∈ hotfixLabelMrs) ∧
      ∀ iid, iid ∈ (mergeListings queueLabelMrs hotfixLabelMrs).map MergeRequest.iid ↔
        iid ∈ queueLabelMrs.map MergeRequest.iid ∨ iid ∈ hotfixLabelMrs.map MergeRequest.iid := by
  have hstart : (([] : List MergeRequest).map MergeRequest.iid).Nodup := List.nodup_nil
  obtain ⟨hnodup, hmem, hiids⟩ := foldl_putByIid (queueLabelMrs ++ hotfixLabelMrs) hstart
  refine ⟨hnodup, fun m hm ↦ ?_, fun iid ↦ ?_⟩
  · rcases hmem m hm with h | h
    · cases h
    · exact List.mem_append.mp h
  · rw [mergeListings, hiids]
    simp

section Listed

variable {settings : Settings} (forge : Forge)

/-- What the sync takes for the state of GitLab. -/
def gitlabMrs (settings : Settings) (forge : Forge) : List MergeRequest :=
  mergeListings (forge.listing settings.queueLabel) (forge.listing settings.hotfixLabel)

theorem mem_gitlabMrs {mr : MergeRequest} (h : mr ∈ gitlabMrs settings forge) :
    ∃ current, forge.getMr mr.iid = some current ∧ current.state = .opened ∧
      current.labels = mr.labels ∧
      (settings.queueLabel ∈ mr.labels ∨ settings.hotfixLabel ∈ mr.labels) := by
  rcases (mergeListings_spec _ _).2.1 mr h with hm | hm
  · obtain ⟨hlabel, current, hcurrent, hopened, hlabels⟩ := forge.agrees _ mr hm
    exact ⟨current, hcurrent, hopened, hlabels, Or.inl hlabel⟩
  · obtain ⟨hlabel, current, hcurrent, hopened, hlabels⟩ := forge.agrees _ mr hm
    exact ⟨current, hcurrent, hopened, hlabels, Or.inr hlabel⟩

/-- The listings together tell which merge requests are triggered. -/
theorem mem_iids_gitlabMrs {iid : ℕ} :
    iid ∈ (gitlabMrs settings forge).map MergeRequest.iid ↔ forge.Triggered settings iid := by
  constructor
  · intro h
    obtain ⟨mr, hmr, rfl⟩ := List.mem_map.mp h
    obtain ⟨current, hcurrent, hopened, hlabels, htrigger⟩ := mem_gitlabMrs forge hmr
    exact ⟨current, hcurrent, hopened, by rwa [hlabels]⟩
  · rintro ⟨current, hcurrent, hopened, htrigger⟩
    rw [gitlabMrs, (mergeListings_spec _ _).2.2]
    rcases htrigger with hlabel | hlabel
    · obtain ⟨mr, hmr, hiid⟩ := forge.complete _ iid current hcurrent hopened hlabel
      exact Or.inl (List.mem_map.mpr ⟨mr, hmr, hiid⟩)
    · obtain ⟨mr, hmr, hiid⟩ := forge.complete _ iid current hcurrent hopened hlabel
      exact Or.inr (List.mem_map.mpr ⟨mr, hmr, hiid⟩)

end Listed

end QueueScheduler

/-! ## The three loops -/

/-- Every set of labels has a class: the project has a policy, or there are no policies. -/
def Classifies (settings : Settings) : Prop :=
  ∀ labels, ∃ classes, QueueMetadataUpdater.classifyLabels settings labels = .ok classes

/-- A completion owns the row. -/
def owned (o : Option MergeRequestRow) : Bool := o.any fun r ↦ r.pendingCompletion.isSome

def live (o : Option MergeRequestRow) : Bool := o.any fun r ↦ r.status.active

/-- The class or the labels of the row are not those that GitLab reports. -/
def outdated (settings : Settings) (labels : List String) (r : MergeRequestRow) : Bool :=
  match QueueMetadataUpdater.classifyLabels settings labels with
  | .error _ => false
  | .ok (isHotfix, isAutomated) =>
      effectivePriority r.isHotfix r.isAutomated ≠ effectivePriority isHotfix isAutomated ||
        !QueueMetadataUpdater.sameLabels (rowToQueueItem r).labels labels

/-- The row after a refresh. -/
def refreshedRow (settings : Settings) (labels : List String) (r : MergeRequestRow) :
    MergeRequestRow :=
  match QueueMetadataUpdater.classifyLabels settings labels with
  | .error _ => r
  | .ok classes => if outdated settings labels r then r.relabelled labels classes else r

/-- A merge request that no completion owns has a row made of what GitLab reports. -/
def Added (settings : Settings) (mr : MergeRequest) (o o' : Option MergeRequestRow) : Prop :=
  if owned o then o' = o
  else ∃ r classes, o' = some r ∧
    QueueMetadataUpdater.classifyLabels settings mr.labels = .ok classes ∧
    Inserted mr.labels classes r

def Orphaned (_ : QueueItem) (o o' : Option MergeRequestRow) : Prop :=
  o' = o.map fun r ↦ { r with status := .removed }

def Relisted (settings : Settings) (queueMrIids : List ℕ) (mr : MergeRequest)
    (o o' : Option MergeRequestRow) : Prop :=
  o' = if queueMrIids.contains mr.iid then o.map (refreshedRow settings mr.labels) else o

namespace QueueScheduler

section Loops

variable {settings : Settings} {forge : Forge} {s : Local} {log : List Op} {w : World}

theorem owned_selectQueueItem {iid : ℕ} :
    ((w.db.selectQueueItem settings.gitlabProjectId iid).any fun item ↦
      item.pendingCompletion.isSome) = owned (w.cell settings iid) := by
  rw [owned, World.cell, cell_any _ fun _ ↦ rfl, Database.selectQueueItem, Option.any_map]
  rfl

theorem finishes_addMissingMr {mr : MergeRequest} (hclassifies : Classifies settings)
    (hlocks : w.locks = []) (hended : live (w.cell settings mr.iid) = false) :
    Finishes (serving settings forge) (addMissingMr settings mr) s log w fun result _ _ w' ↦
      result = .ok (!owned (w.cell settings mr.iid)) ∧ w'.locks = [] ∧
        Updates (World.cell settings) MergeRequest.iid (Added settings) [mr] w w' := by
  refine Finishes.bind (serves_getQueueItem ?_)
  simp only
  rw [owned_selectQueueItem]
  cases howned : owned (w.cell settings mr.iid) with
  | true =>
      refine Finishes.ret ⟨rfl, hlocks, Updates.of_one ?_ fun _ _ ↦ rfl⟩
      rw [Added, if_pos howned]
  | false =>
      simp only [Bool.false_eq_true, if_false]
      obtain ⟨classes, hclasses⟩ := hclassifies mr.labels
      have hfree : ∀ r ∈ w.db.row settings.gitlabProjectId mr.iid,
          r.status.active = false ∧ r.pendingCompletion = none := by
        intro r hr
        rw [live, World.cell, cell_any _ fun _ ↦ rfl, Option.mem_def.mp hr] at hended
        rw [owned, World.cell, cell_any _ fun _ ↦ rfl, Option.mem_def.mp hr] at howned
        exact ⟨hended, by simpa using howned⟩
      refine Finishes.bind (Finishes.bind (serves_db fun now tokens ↦ ?_))
      obtain ⟨item, db', hadd, r, hr, hinserted⟩ := row_addToQueue now hclasses hfree
      have hexec : (QueueOp.addToQueue settings.gitlabProjectId mr
          (mr.labels.contains settings.hotfixLabel)).exec settings.qm now tokens w.db =
            .ok (item, db') := hadd
      rw [hexec, committed_ok]
      refine Finishes.ret (Finishes.ret ⟨rfl, hlocks, Updates.of_one ?_ fun iid hiid ↦ ?_⟩)
      · rw [Added, howned, if_neg Bool.false_ne_true]
        obtain ⟨hstatus, hopen, hlabels, hhotfix, hautomated⟩ := hinserted
        exact ⟨r.quiet, classes, cell_of_row hr, hclasses,
          ⟨hstatus, hopen, hlabels, hhotfix, hautomated⟩⟩
      · rw [World.cell, World.cell, Database.cell, Database.cell]
        congr 1
        exact row_addToQueue_of_ne hadd hiid

theorem finishes_shouldRemoveFromQueue {iid : ℕ} (hlost : ¬ forge.Triggered settings iid)
    {post : Except PyError Bool → Local → List Op → World → Prop}
    (h : ∀ log' w', w'.db = w.db → w'.locks = w.locks → post (.ok true) s log' w') :
    Finishes (serving settings forge) (shouldRemoveFromQueue settings iid) s log w post := by
  refine Finishes.handle (Finishes.bind (serves_getMr fun w' hdb hlocks ↦ ?_))
  cases hcurrent : forge.getMr iid with
  | none => exact Finishes.ret (h _ _ hdb hlocks)
  | some current =>
      simp only
      split_ifs with hstate
      · exact Finishes.ret (h _ _ hdb hlocks)
      · have hnone : (!current.labels.contains settings.queueLabel &&
            !current.labels.contains settings.hotfixLabel) = true := by
          by_contra htrigger
          refine hlost ⟨current, hcurrent, not_not.mp hstate, ?_⟩
          simp only [Bool.and_eq_true, Bool.not_eq_true', List.contains_eq_mem,
            decide_eq_false_iff_not] at htrigger
          tauto
        rw [hnone]
        exact Finishes.ret (h _ _ hdb hlocks)

theorem finishes_removeOrphanedMr {item : QueueItem} (hlocks : w.locks = [])
    (hlost : ¬ forge.Triggered settings item.mrIid) :
    Finishes (serving settings forge) (removeOrphanedMr settings item) s log w fun result _ _ w' ↦
      result = .ok true ∧ w'.locks = [] ∧
        Updates (World.cell settings) QueueItem.mrIid Orphaned [item] w w' := by
  refine Finishes.bind (finishes_shouldRemoveFromQueue hlost fun log' w' hdb hsame ↦ ?_)
  simp only [if_true]
  refine Finishes.bind (serves_db fun now tokens ↦ Finishes.ret ⟨rfl, hsame.trans hlocks, ?_⟩)
  have hcell : ∀ iid, World.cell settings { w' with
      db := committed w'.db ((QueueOp.removeFromQueue settings.gitlabProjectId item.mrIid).exec
        settings.qm now tokens w'.db) } iid =
      if iid = item.mrIid then (w.cell settings iid).map fun r ↦ { r with status := .removed }
      else w.cell settings iid := by
    intro iid
    rw [World.cell, World.cell, ← hdb]
    exact cell_removeFromQueue item.mrIid
  refine Updates.of_one ?_ fun iid hiid ↦ ?_
  · exact (hcell item.mrIid).trans (if_pos rfl)
  · exact (hcell iid).trans (if_neg hiid)

theorem says_of_not_outdated {labels : List String} {isHotfix isAutomated : Bool}
    {r : MergeRequestRow}
    (hclasses : QueueMetadataUpdater.classifyLabels settings labels = .ok (isHotfix, isAutomated))
    (h : Says isHotfix isAutomated labels r) : outdated settings labels r = false := by
  obtain ⟨rfl, rfl, hlabels⟩ := h
  have hsame : QueueMetadataUpdater.sameLabels (rowToQueueItem r).labels labels = true := by
    rcases hlabels with h | ⟨h, rfl⟩ <;>
      simp [QueueMetadataUpdater.sameLabels, rowToQueueItem, parseSavedLabels, h]
  simp [outdated, hclasses, hsame]

/-- A refresh under the revision of the row writes what is outdated. -/
theorem finishes_refreshItem {iid : ℕ} {labels : List String} {r : MergeRequestRow}
    (hclassifies : Classifies settings) (hcell : w.cell settings iid = some r)
    (hactive : r.status.active = true) :
    Finishes (serving settings forge)
      (QueueMetadataUpdater.refreshItem settings iid labels (some (r.id, r.metadataVersion)) none)
      s log w fun result _ _ w' ↦ result = .ok (outdated settings labels r) ∧
        w'.locks = w.locks ∧ w'.cell settings iid = some (refreshedRow settings labels r) ∧
        ∀ other, other ≠ iid → w'.cell settings other = w.cell settings other := by
  obtain ⟨row, hrow, rfl⟩ := Option.map_eq_some_iff.mp hcell
  obtain ⟨⟨isHotfix, isAutomated⟩, hclasses⟩ := hclassifies labels
  have hstate : (rowToQueueItem row).state.active = true := hactive
  have hrevision : (some (row.quiet.id, row.quiet.metadataVersion)).any
      (fun revision ↦ decide (revision ≠ ((rowToQueueItem row).queueId,
        (rowToQueueItem row).metadataVersion))) = false := by
    simp only [Option.any_some, decide_eq_false_iff_not, not_not]
    rfl
  have houtdated : outdated settings labels row.quiet =
      !(!decide (effectivePriority (rowToQueueItem row).isHotfix (rowToQueueItem row).isAutomated ≠
          effectivePriority isHotfix isAutomated) &&
        QueueMetadataUpdater.sameLabels (rowToQueueItem row).labels labels) := by
    simp only [outdated, hclasses, Bool.not_and, Bool.not_not]
    rfl
  refine Finishes.bind (serves_getQueueItem ?_)
  simp only [Database.selectQueueItem, hrow, Option.map_some, hstate, Bool.true_eq_false, if_false,
    hrevision, Bool.false_eq_true, hclasses, Option.isNone_none, Bool.and_true]
  cases hout : outdated settings labels row.quiet with
  | false =>
      rw [hout, eq_comm, Bool.not_eq_false'] at houtdated
      rw [if_pos houtdated]
      have hkept : refreshedRow settings labels row.quiet = row.quiet := by
        simp only [refreshedRow, hclasses, hout, Bool.false_eq_true, if_false]
      exact Finishes.ret ⟨rfl, rfl, by rw [hcell, hkept], fun _ _ ↦ rfl⟩
  | true =>
      rw [hout, eq_comm, Bool.not_eq_true'] at houtdated
      rw [if_neg (by rw [houtdated]; exact Bool.false_ne_true)]
      have hnew : ¬ Says isHotfix isAutomated labels row := fun hsays ↦ by
        have hnot : outdated settings labels row.quiet = false :=
          says_of_not_outdated hclasses hsays
        rw [hout] at hnot
        cases hnot
      refine serves_db fun now tokens ↦ ?_
      obtain ⟨db', hupdate, hwritten, hothers⟩ := cell_updateHotfixStatus _ now tokens hclasses
        hrow hactive hnew
      have hexec : (QueueOp.updateHotfixStatus settings.gitlabProjectId iid isHotfix labels
          (some ((rowToQueueItem row).queueId, (rowToQueueItem row).metadataVersion)) _ none
          (some isAutomated)).exec settings.qm now tokens w.db = .ok (true, db') := hupdate
      rw [hexec, committed_ok]
      refine ⟨rfl, rfl, ?_, hothers⟩
      simp only [refreshedRow, hclasses, hout, if_true]
      exact hwritten

/-- Only a queued merge request is refreshed. -/
theorem finishes_refreshListedMr {queueMrIids : List ℕ} {revisions : List (ℕ × ℕ × ℕ)}
    {mr : MergeRequest} (hclassifies : Classifies settings) (hlocks : w.locks = [])
    (hqueued : queueMrIids.contains mr.iid = true → ∃ r, w.cell settings mr.iid = some r ∧
      r.status.active = true ∧ revisions.lookup mr.iid = some (r.id, r.metadataVersion)) :
    Finishes (serving settings forge) (refreshListedMr settings queueMrIids revisions mr) s log w
      fun result _ _ w' ↦
        result = .ok (queueMrIids.contains mr.iid &&
          (w.cell settings mr.iid).any (outdated settings mr.labels)) ∧ w'.locks = [] ∧
        Updates (World.cell settings) MergeRequest.iid (Relisted settings queueMrIids) [mr]
          w w' := by
  unfold refreshListedMr
  cases hlisted : queueMrIids.contains mr.iid with
  | false =>
      refine Finishes.ret ⟨rfl, hlocks, Updates.of_one ?_ fun _ _ ↦ rfl⟩
      rw [Relisted, hlisted, if_neg Bool.false_ne_true]
  | true =>
      obtain ⟨r, hcell, hactive, hrevision⟩ := hqueued hlisted
      simp only [if_true, hrevision, Bool.true_and, hcell, Option.any_some]
      refine Finishes.bind (serves_acquire (held_eq_false (by simp [hlocks])) ?_)
      refine Finishes.ensuring (Finishes.bind ((finishes_refreshItem hclassifies
        (by exact hcell) hactive).mono ?_))
      rintro _ s' log' w' ⟨rfl, hheld, hwritten, hothers⟩
      refine Finishes.bind (Finishes.ret (Finishes.ret (serves_release ⟨rfl, ?_, ?_⟩)))
      · simp [hheld, hlocks]
      · refine Updates.of_one ?_ fun iid hiid ↦ hothers iid hiid
        rw [Relisted, hlisted, if_pos rfl, hcell]
        exact hwritten

end Loops

end QueueScheduler

/-! ## The queue that a sync reads -/

section Queue

open MergeRequestRepository

variable {projectId iid : ℕ} {db : Database}

theorem live_cell_iff :
    live (db.cell projectId iid) = true ↔
      ∃ r ∈ getAllActive projectId db, r.iid = iid := by
  rw [live, cell_any _ fun _ ↦ rfl]
  constructor
  · intro h
    obtain ⟨r, hrow, hactive⟩ := (Option.any_eq_true _ _).mp h
    obtain ⟨hmem, hkey⟩ := KeyedTable.byKey_eq_some_iff.mp hrow
    simp only [key_mergeRequestRow, Prod.mk.injEq] at hkey
    exact ⟨r, mem_getAllActive.mpr ⟨hmem, hkey.1, hactive⟩, hkey.2⟩
  · rintro ⟨r, hr, rfl⟩
    obtain ⟨hmem, rfl, hactive⟩ := mem_getAllActive.mp hr
    refine (Option.any_eq_true _ _).mpr ⟨r, ?_, hactive⟩
    exact KeyedTable.byKey_eq_some_iff.mpr ⟨hmem, rfl⟩

theorem mem_queueIids :
    iid ∈ (getActiveQueue projectId db).map QueueItem.mrIid ↔
      live (db.cell projectId iid) = true := by
  rw [live_cell_iff, getActiveQueue_eq, List.map_map, List.mem_map]
  rfl

theorem nodup_queueIids : ((getActiveQueue projectId db).map QueueItem.mrIid).Nodup := by
  rw [getActiveQueue_eq, List.map_map]
  exact (List.nodup_map_iff_inj_on (nodup_getAllActive projectId db)).mpr
    fun _ ha _ hb h ↦ iid_injective ha hb h

theorem lookup_revisions {r : MergeRequestRow} (hcell : db.cell projectId iid = some r)
    (hactive : r.status.active = true) :
    ((getActiveQueue projectId db).map fun item ↦
      (item.mrIid, item.queueId, item.metadataVersion)).lookup iid =
        some (r.id, r.metadataVersion) := by
  obtain ⟨row, hrow, rfl⟩ := Option.map_eq_some_iff.mp hcell
  obtain ⟨hmem, hkey⟩ := KeyedTable.byKey_eq_some_iff.mp hrow
  simp only [key_mergeRequestRow, Prod.mk.injEq] at hkey
  have hactive' : row ∈ getAllActive projectId db := mem_getAllActive.mpr ⟨hmem, hkey.1, hactive⟩
  refine lookup_of_mem ?_ ?_
  · rw [List.map_map]
    exact nodup_queueIids
  · refine List.mem_map.mpr ⟨rowToQueueItem row, ?_, ?_⟩
    · rw [getActiveQueue_eq]
      exact List.mem_map_of_mem hactive'
    · rw [← hkey.2]
      rfl

end Queue

/-! ## A sync -/

namespace QueueScheduler

/-- How a sync leaves the row of a merge request. -/
structure Synced (settings : Settings) (forge : Forge) (iid : ℕ) (o o' : Option MergeRequestRow) :
    Prop where
  listed : ∀ mr ∈ gitlabMrs settings forge, mr.iid = iid →
    if live o then o' = o.map (refreshedRow settings mr.labels) else Added settings mr o o'
  lost : ¬ forge.Triggered settings iid →
    o' = if live o then o.map fun r ↦ { r with status := .removed } else o

section Sync

variable {settings : Settings} {forge : Forge} {s : Local} {log : List Op} {w : World}

/-- The queue as the sync reads it, by merge request. -/
def queueIids (settings : Settings) (db : Database) : List ℕ :=
  (getActiveQueue settings.gitlabProjectId db).map QueueItem.mrIid

def revisions (settings : Settings) (db : Database) : List (ℕ × ℕ × ℕ) :=
  (getActiveQueue settings.gitlabProjectId db).map fun item ↦
    (item.mrIid, item.queueId, item.metadataVersion)

/-- The merge requests that are listed and not queued. -/
def missing (settings : Settings) (forge : Forge) (db : Database) : List MergeRequest :=
  (gitlabMrs settings forge).filter fun mr ↦
    !(queueIids settings db).contains mr.iid

/-- The items that are queued and not listed. -/
def orphans (settings : Settings) (forge : Forge) (db : Database) : List QueueItem :=
  (getActiveQueue settings.gitlabProjectId db).filter fun item ↦
    !((gitlabMrs settings forge).map MergeRequest.iid).contains item.mrIid

theorem queueIids_contains {iid : ℕ} :
    (queueIids settings w.db).contains iid = live (w.cell settings iid) := by
  rw [Bool.eq_iff_iff, List.contains_iff_mem]
  exact mem_queueIids

theorem mem_missing {mr : MergeRequest} :
    mr ∈ missing settings forge w.db ↔
      mr ∈ gitlabMrs settings forge ∧ live (w.cell settings mr.iid) = false := by
  rw [missing, List.mem_filter, queueIids_contains, Bool.not_eq_true']

theorem mem_orphans_iids {iid : ℕ} :
    iid ∈ (orphans settings forge w.db).map QueueItem.mrIid ↔
      live (w.cell settings iid) = true ∧ ¬ forge.Triggered settings iid := by
  have hitem : ∀ item : QueueItem, item ∈ orphans settings forge w.db ↔
      item ∈ getActiveQueue settings.gitlabProjectId w.db ∧
        ¬ forge.Triggered settings item.mrIid := by
    intro item
    rw [orphans, List.mem_filter, Bool.not_eq_true', List.contains_eq_mem,
      decide_eq_false_iff_not, mem_iids_gitlabMrs]
  simp only [List.mem_map, hitem]
  rw [World.cell, ← mem_queueIids, List.mem_map]
  constructor
  · rintro ⟨item, ⟨hqueued, hlost⟩, rfl⟩
    exact ⟨⟨item, hqueued, rfl⟩, hlost⟩
  · rintro ⟨⟨item, hqueued, rfl⟩, hlost⟩
    exact ⟨item, ⟨hqueued, hlost⟩, rfl⟩

/-- The first loop leaves the queued merge requests alone. -/
theorem cell_after_adding {w₁ : World} {iid : ℕ}
    (hadded : Updates (World.cell settings) MergeRequest.iid (Added settings)
      (missing settings forge w.db) w w₁) (hlive : live (w.cell settings iid) = true) :
    w₁.cell settings iid = w.cell settings iid := by
  refine hadded.others iid fun mr hmr heq ↦ ?_
  have hended := (mem_missing.mp hmr).2
  rw [heq, hlive] at hended
  cases hended

/-- The second loop leaves the triggered merge requests alone. -/
theorem cell_after_removing {w₁ w₂ : World} {iid : ℕ}
    (hremoved : Updates (World.cell settings) QueueItem.mrIid Orphaned
      (orphans settings forge w.db) w₁ w₂) (htriggered : forge.Triggered settings iid) :
    w₂.cell settings iid = w₁.cell settings iid := by
  refine hremoved.others iid fun item hitem heq ↦ ?_
  exact (mem_orphans_iids.mp (List.mem_map.mpr ⟨item, hitem, heq⟩)).2 htriggered

/-- The three loops together. -/
theorem synced_of_updates {w₁ w₂ w₃ : World}
    (hadded : Updates (World.cell settings) MergeRequest.iid (Added settings)
      (missing settings forge w.db) w w₁)
    (hremoved : Updates (World.cell settings) QueueItem.mrIid Orphaned
      (orphans settings forge w.db) w₁ w₂)
    (hrefreshed : Updates (World.cell settings) MergeRequest.iid
      (Relisted settings (queueIids settings w.db))
      (gitlabMrs settings forge) w₂ w₃) (iid : ℕ) :
    Synced settings forge iid (w.cell settings iid) (w₃.cell settings iid) := by
  constructor
  · rintro mr hmr rfl
    have htriggered : forge.Triggered settings mr.iid :=
      (mem_iids_gitlabMrs forge).mp (List.mem_map_of_mem hmr)
    have hrelisted := hrefreshed.listed mr hmr
    rw [Relisted, cell_after_removing hremoved htriggered] at hrelisted
    rw [queueIids_contains] at hrelisted
    cases hlive : live (w.cell settings mr.iid) with
    | true =>
        rw [hlive, if_pos rfl, cell_after_adding hadded hlive] at hrelisted
        rwa [if_pos rfl]
    | false =>
        rw [hlive, if_neg Bool.false_ne_true] at hrelisted
        rw [if_neg Bool.false_ne_true, hrelisted]
        exact hadded.listed mr (mem_missing.mpr ⟨hmr, hlive⟩)
  · intro hlost
    have hunlisted : ∀ mr ∈ gitlabMrs settings forge, mr.iid ≠ iid := fun mr hmr heq ↦
      hlost ((mem_iids_gitlabMrs forge).mp (List.mem_map.mpr ⟨mr, hmr, heq⟩))
    have hfirst : w₁.cell settings iid = w.cell settings iid :=
      hadded.others iid fun mr hmr ↦ hunlisted mr (mem_missing.mp hmr).1
    rw [hrefreshed.others iid hunlisted]
    split_ifs with hlive
    · obtain ⟨item, hitem, rfl⟩ := List.mem_map.mp (mem_orphans_iids.mpr ⟨hlive, hlost⟩)
      have hmarked := hremoved.listed item hitem
      rw [Orphaned, hfirst] at hmarked
      exact hmarked
    · rw [hremoved.others iid fun item hitem heq ↦ hlive
        (mem_orphans_iids.mp (List.mem_map.mpr ⟨item, hitem, heq⟩)).1, hfirst]

/-- What a sync counts. -/
structure Counted (settings : Settings) (forge : Forge) (db : Database) (stats : SyncStats) :
    Prop where
  added : stats.added =
    (missing settings forge db).countP fun mr ↦ !owned (db.cell settings.gitlabProjectId mr.iid)
  removed : stats.removed = (orphans settings forge db).length
  updated : stats.updated = (gitlabMrs settings forge).countP fun mr ↦
    live (db.cell settings.gitlabProjectId mr.iid) &&
      (db.cell settings.gitlabProjectId mr.iid).any (outdated settings mr.labels)

theorem world_cell_of_db {w' : World} (h : w'.db = w.db) :
    w'.cell settings = w.cell settings := by
  funext iid
  rw [World.cell, World.cell, h]

theorem finishes_finalizeSync {stats : SyncStats} (hlocks : w.locks = []) :
    Finishes (serving settings forge) (finalizeSync settings stats) s log w
      fun result _ _ w' ↦ ∃ n, result = .ok { stats with mrsInQueue := n } ∧ w'.locks = [] ∧
        w'.cell settings = w.cell settings := by
  have hrest : ∀ s log w', w'.locks = [] → w'.cell settings = w.cell settings →
      Finishes (serving settings forge)
        (do
          let updatedQueue : List QueueItem ← Prog.db (.getActiveQueue settings.gitlabProjectId)
          return { stats with mrsInQueue := updatedQueue.length }) s log w'
        fun result _ _ w' ↦ ∃ n, result = .ok { stats with mrsInQueue := n } ∧ w'.locks = [] ∧
          w'.cell settings = w.cell settings :=
    fun s log w' hlocks' hcell ↦ Finishes.bind (serves_getActiveQueue
      (Finishes.ret ⟨_, rfl, hlocks', hcell⟩))
  have hquiet : (broadcastQueueUpdate settings).Quiet settings forge (fun _ ↦ True)
      fun _ ↦ False := quiet_broadcastQueueUpdate
  unfold finalizeSync
  split_ifs
  · refine Finishes.bind ((hquiet s log w trivial).mono fun result s' log' w' h ↦ ?_)
    obtain ⟨herror, hheld, hcell⟩ := h
    cases result with
    | error e => exact (herror e rfl).elim
    | ok a => exact hrest s' log' w' (hheld.trans hlocks) hcell
  · exact hrest s log w hlocks rfl

theorem finishes_addMissingMrs (hclassifies : Classifies settings) (hlocks : w.locks = []) :
    Finishes (serving settings forge)
      (Program.tally (addMissingMr settings) (missing settings forge w.db)) s log w
      fun result _ _ w' ↦
        result = .ok ((missing settings forge w.db).countP fun mr ↦
          !owned (w.cell settings mr.iid)) ∧ w'.locks = [] ∧
        Updates (World.cell settings) MergeRequest.iid (Added settings)
          (missing settings forge w.db) w w' := by
  refine Finishes.tally (I := fun _ (w : World) ↦ w.locks = [])
    (Q := fun _ o ↦ live o = false) (H := fun _ o ↦ !owned o) ?_ ?_ ?_ hlocks
  · exact fun mr _ s log w hlocks hended ↦ finishes_addMissingMr hclassifies hlocks hended
  · exact (mergeListings_spec _ _).1.sublist (List.filter_sublist.map _)
  · exact fun mr hmr ↦ (mem_missing.mp hmr).2

theorem finishes_removeOrphanedMrs {w₁ : World} (hlocks : w₁.locks = []) :
    Finishes (serving settings forge)
      (Program.tally (removeOrphanedMr settings) (orphans settings forge w.db)) s log w₁
      fun result _ _ w' ↦
        result = .ok (orphans settings forge w.db).length ∧ w'.locks = [] ∧
        Updates (World.cell settings) QueueItem.mrIid Orphaned
          (orphans settings forge w.db) w₁ w' := by
  rw [← List.countP_true]
  refine Finishes.tally (I := fun _ (w : World) ↦ w.locks = []) (Q := fun _ _ ↦ True)
    (H := fun _ _ ↦ true) ?_ ?_ (fun _ _ ↦ trivial) hlocks
  · intro item hitem s log w' hlocks _
    refine finishes_removeOrphanedMr hlocks ?_
    exact (mem_orphans_iids.mp (List.mem_map_of_mem hitem)).2
  · exact nodup_queueIids.sublist (List.filter_sublist.map _)

theorem finishes_refreshListedMrs {w₁ : World} (hclassifies : Classifies settings)
    (hlocks : w₁.locks = [])
    (hkept : ∀ mr ∈ gitlabMrs settings forge, live (w.cell settings mr.iid) = true →
      w₁.cell settings mr.iid = w.cell settings mr.iid) :
    Finishes (serving settings forge)
      (Program.tally
        (refreshListedMr settings (queueIids settings w.db)
          (revisions settings w.db))
        (gitlabMrs settings forge)) s log w₁
      fun result _ _ w' ↦
        result = .ok ((gitlabMrs settings forge).countP fun mr ↦
          live (w.cell settings mr.iid) &&
            (w.cell settings mr.iid).any (outdated settings mr.labels)) ∧ w'.locks = [] ∧
        Updates (World.cell settings) MergeRequest.iid
          (Relisted settings (queueIids settings w.db)) (gitlabMrs settings forge) w₁ w' := by
  have hcount : (gitlabMrs settings forge).countP (fun mr ↦
      live (w.cell settings mr.iid) &&
        (w.cell settings mr.iid).any (outdated settings mr.labels)) =
      (gitlabMrs settings forge).countP fun mr ↦ (queueIids settings w.db).contains mr.iid &&
        (w₁.cell settings mr.iid).any (outdated settings mr.labels) := by
    apply List.countP_congr
    intro mr hmr
    rw [queueIids_contains]
    cases hlive : live (w.cell settings mr.iid) with
    | false => simp
    | true => rw [hkept mr hmr hlive]
  rw [hcount]
  refine Finishes.tally (I := fun _ (w : World) ↦ w.locks = [])
    (Q := fun mr o ↦ (queueIids settings w.db).contains mr.iid = true → ∃ r, o = some r ∧
      r.status.active = true ∧
        (revisions settings w.db).lookup mr.iid = some (r.id, r.metadataVersion))
    (H := fun mr o ↦ (queueIids settings w.db).contains mr.iid &&
      o.any (outdated settings mr.labels)) ?_ (mergeListings_spec _ _).1 ?_ hlocks
  · exact fun mr _ s log w' hlocks hqueued ↦
      finishes_refreshListedMr hclassifies hlocks hqueued
  · intro mr hmr hqueued
    rw [queueIids_contains] at hqueued
    rw [hkept mr hmr hqueued]
    obtain ⟨r, hcell, hactive⟩ := (Option.any_eq_true _ _).mp hqueued
    exact ⟨r, hcell, hactive, lookup_revisions hcell hactive⟩

theorem finishes_doSync (hclassifies : Classifies settings) (hlocks : w.locks = []) :
    Finishes (serving settings forge) (doSync settings) s log w fun result _ _ w' ↦
      ∃ stats, result = .ok stats ∧ Counted settings forge w.db stats ∧ w'.locks = [] ∧
        ∀ iid, Synced settings forge iid (w.cell settings iid) (w'.cell settings iid) := by
  refine Finishes.bind (serves_getActiveQueue ?_)
  refine Finishes.bind (serves_listing fun w₁ hdb₁ hlocks₁ ↦ ?_)
  refine Finishes.bind (serves_listing fun w₂ hdb₂ hlocks₂ ↦ ?_)
  refine Finishes.bind (serves_getActiveQueue ?_)
  have hdb : w₂.db = w.db := hdb₂.trans hdb₁
  have hfree : w₂.locks = [] := (hlocks₂.trans hlocks₁).trans hlocks
  rw [← world_cell_of_db hdb, ← hdb]
  refine Finishes.bind ((finishes_addMissingMrs hclassifies hfree).mono ?_)
  rintro _ s₃ log₃ w₃ ⟨rfl, hlocks₃, hadded⟩
  refine Finishes.bind ((finishes_removeOrphanedMrs hlocks₃).mono ?_)
  rintro _ s₄ log₄ w₄ ⟨rfl, hlocks₄, hremoved⟩
  refine Finishes.bind ((finishes_refreshListedMrs hclassifies hlocks₄ ?_).mono ?_)
  · intro mr hmr hlive
    rw [cell_after_removing hremoved ((mem_iids_gitlabMrs forge).mp (List.mem_map_of_mem hmr)),
      cell_after_adding hadded hlive]
  rintro _ s₅ log₅ w₅ ⟨rfl, hlocks₅, hrefreshed⟩
  have hsynced := synced_of_updates hadded hremoved hrefreshed
  refine Finishes.bind ((quiet_retryPending s₅ log₅ w₅ hlocks₅).mono fun result s₆ log₆ w₆ h ↦ ?_)
  obtain ⟨herror, hlocks₆, hcell⟩ := h
  rw [← hcell] at hsynced
  cases result with
  | error e => exact (herror e rfl).elim
  | ok a =>
      simp only
      split_ifs
      · refine (finishes_finalizeSync (hlocks₆.trans hlocks₅)).mono ?_
        rintro _ s₇ log₇ w₇ ⟨n, rfl, hlocks₇, hcell₇⟩
        rw [← hcell₇] at hsynced
        exact ⟨_, rfl, ⟨rfl, rfl, rfl⟩, hlocks₇, hsynced⟩
      · exact Finishes.ret ⟨_, rfl, ⟨rfl, rfl, rfl⟩, hlocks₆.trans hlocks₅, hsynced⟩

end Sync

/-! ### A second sync -/

section InSync

variable {settings : Settings} {forge : Forge} {labels : List String} {r : MergeRequestRow}
  {iid : ℕ} {o o' o'' : Option MergeRequestRow}

theorem refreshedRow_of_not_outdated (h : outdated settings labels r = false) :
    refreshedRow settings labels r = r := by
  unfold refreshedRow
  cases QueueMetadataUpdater.classifyLabels settings labels with
  | error e => rfl
  | ok classes => simp [h]

/-- A refresh changes neither the identity nor the state of a row. -/
theorem refreshedRow_kept :
    (refreshedRow settings labels r).id = r.id ∧
      (refreshedRow settings labels r).status = r.status ∧
      (refreshedRow settings labels r).pendingCompletion = r.pendingCompletion := by
  unfold refreshedRow
  cases QueueMetadataUpdater.classifyLabels settings labels with
  | error e => exact ⟨rfl, rfl, rfl⟩
  | ok classes =>
      simp only
      split_ifs <;> exact ⟨rfl, rfl, rfl⟩

theorem outdated_of_written {classes : Bool × Bool}
    (hclasses : QueueMetadataUpdater.classifyLabels settings labels = .ok classes)
    (hhotfix : r.isHotfix = classes.1) (hautomated : r.isAutomated = classes.2)
    (hlabels : r.labels = .json labels) : outdated settings labels r = false :=
  says_of_not_outdated hclasses ⟨hhotfix, hautomated, Or.inl hlabels⟩

theorem outdated_refreshedRow : outdated settings labels (refreshedRow settings labels r) =
    false := by
  cases hout : outdated settings labels r with
  | false => rw [refreshedRow_of_not_outdated hout, hout]
  | true =>
      cases hclasses : QueueMetadataUpdater.classifyLabels settings labels with
      | error e =>
          simp only [outdated, hclasses] at hout
          cases hout
      | ok classes =>
          simp only [refreshedRow, hclasses, hout, if_true]
          exact outdated_of_written hclasses rfl rfl rfl

/-- Nothing is left for another sync: a listed row is up to date or owned by a completion,
and no other row is active. -/
structure InSync (settings : Settings) (forge : Forge) (iid : ℕ) (o : Option MergeRequestRow) :
    Prop where
  listed : ∀ mr ∈ gitlabMrs settings forge, mr.iid = iid →
    if live o then o.any (outdated settings mr.labels) = false else owned o = true
  lost : ¬ forge.Triggered settings iid → live o = false

theorem Synced.inSync (h : Synced settings forge iid o o') : InSync settings forge iid o' := by
  constructor
  · intro mr hmr hiid
    have hlisted := h.listed mr hmr hiid
    cases hlive : live o with
    | true =>
        rw [hlive, if_pos rfl] at hlisted
        obtain ⟨r, rfl, hactive⟩ := (Option.any_eq_true _ _).mp hlive
        have hstill : live o' = true := by
          rw [hlisted, live, Option.map_some, Option.any_some, refreshedRow_kept.2.1]
          exact hactive
        rw [hstill, if_pos rfl, hlisted, Option.map_some, Option.any_some]
        exact outdated_refreshedRow
    | false =>
        rw [hlive, if_neg Bool.false_ne_true, Added] at hlisted
        split_ifs at hlisted with howned
        · rw [hlisted, hlive, if_neg Bool.false_ne_true]
          exact howned
        · obtain ⟨r, classes, rfl, hclasses, hinserted⟩ := hlisted
          have hstill : live (some r) = true := by
            rw [live, Option.any_some, hinserted.status]
            rfl
          rw [hstill, if_pos rfl, Option.any_some]
          exact outdated_of_written hclasses hinserted.isHotfix hinserted.isAutomated
            hinserted.labels
  · intro hlost
    have hmarked := h.lost hlost
    cases hlive : live o with
    | true =>
        rw [hlive, if_pos rfl] at hmarked
        obtain ⟨r, rfl, -⟩ := (Option.any_eq_true _ _).mp hlive
        rw [hmarked]
        rfl
    | false =>
        rw [hlive, if_neg Bool.false_ne_true] at hmarked
        rw [hmarked]
        exact hlive

/-- A sync of a settled row leaves it as it is. -/
theorem InSync.synced (h : InSync settings forge iid o) (hsynced : Synced settings forge iid o o') :
    o' = o := by
  by_cases htriggered : forge.Triggered settings iid
  · obtain ⟨mr, hmr, hiid⟩ := List.mem_map.mp ((mem_iids_gitlabMrs forge).mpr htriggered)
    have hsettled := h.listed mr hmr hiid
    have hlisted := hsynced.listed mr hmr hiid
    cases hlive : live o with
    | true =>
        rw [hlive, if_pos rfl] at hsettled hlisted
        rw [hlisted]
        cases o with
        | none => rfl
        | some r => rw [Option.map_some, refreshedRow_of_not_outdated hsettled]
    | false =>
        rw [hlive, if_neg Bool.false_ne_true] at hsettled hlisted
        rwa [Added, if_pos hsettled] at hlisted
  · have hlost := hsynced.lost htriggered
    rwa [h.lost htriggered, if_neg Bool.false_ne_true] at hlost

/-- A sync of a settled queue counts nothing. -/
theorem Counted.eq_zero {w : World} {stats : SyncStats}
    (hsettled : ∀ iid, InSync settings forge iid (w.cell settings iid))
    (h : Counted settings forge w.db stats) :
    stats.added = 0 ∧ stats.removed = 0 ∧ stats.updated = 0 := by
  refine ⟨?_, ?_, ?_⟩
  · rw [h.added, List.countP_eq_zero]
    intro mr hmr
    obtain ⟨hlisted, hended⟩ := mem_missing.mp hmr
    have hrow := (hsettled mr.iid).listed mr hlisted rfl
    rw [hended, if_neg Bool.false_ne_true] at hrow
    rw [show owned (w.db.cell settings.gitlabProjectId mr.iid) = true from hrow]
    exact Bool.false_ne_true
  · rw [h.removed, List.length_eq_zero_iff, List.eq_nil_iff_forall_not_mem]
    intro item hitem
    obtain ⟨hlive, hlost⟩ := mem_orphans_iids.mp (List.mem_map_of_mem hitem)
    rw [(hsettled item.mrIid).lost hlost] at hlive
    cases hlive
  · rw [h.updated, List.countP_eq_zero]
    intro mr hmr
    have hrow := (hsettled mr.iid).listed mr hmr rfl
    cases hlive : live (w.db.cell settings.gitlabProjectId mr.iid) with
    | false => simp
    | true =>
        rw [World.cell, hlive, if_pos rfl] at hrow
        rw [hrow]
        exact Bool.false_ne_true

end InSync

/-! ### A listing that raises -/

def isListing : Op → Bool
  | .gitlab (.listMrsWithLabel _) => true
  | _ => false

/-- Any await may fail, and the listing number `n` of the task does. -/
def refusing (settings : Settings) (n : ℕ) :
    Stage Op Op.Answer PyError (World × ℕ) Choice where
  exec choice op state :=
    let refused := isListing op && decide (state.2 = n)
    let fault := if refused then some (choice.fault.getD { error := .cancelled })
      else choice.fault
    (World.exec settings.qm 0 { choice with fault } op state.1).map
        fun out ↦ (out.1, out.2, if isListing op then state.2 + 1 else state.2)
  fair _ := True

section Refused

variable {settings : Settings} {n : ℕ} {choice : Choice} {state state' : World × ℕ}

theorem refusing_getActiveQueue
    {answer : Except PyError (Op.Answer (.db (.getActiveQueue settings.gitlabProjectId)))}
    (h : (refusing settings n).exec choice (.db (.getActiveQueue settings.gitlabProjectId)) state =
      some (answer, state')) : state'.1.db = state.1.db ∧ state'.2 = state.2 := by
  simp only [refusing, Option.map_eq_some_iff] at h
  obtain ⟨out, hexec, hout⟩ := h
  obtain ⟨-, rfl⟩ := Prod.mk.inj hout
  refine ⟨?_, rfl⟩
  rcases World.exec_db_cases hexec with hsame | ⟨q, a, hop, hcall⟩
  · exact hsame
  · cases hop
    exact (Prod.mk.inj (Except.ok.inj hcall)).2.symm

theorem refusing_listing {label : String} {answer : Except PyError (List MergeRequest)}
    (h : (refusing settings n).exec choice (.gitlab (.listMrsWithLabel label)) state =
      some (answer, state')) :
    state'.1.db = state.1.db ∧ state'.2 = state.2 + 1 ∧
      (state.2 = n → ∃ e, answer = .error e) := by
  obtain ⟨out, hexec, hout⟩ := Option.map_eq_some_iff.mp h
  obtain ⟨hanswer, rfl⟩ := Prod.mk.inj hout
  refine ⟨?_, rfl, fun hn ↦ ?_⟩
  · rcases World.exec_db_cases hexec with hsame | ⟨q, a, hop, -⟩
    · exact hsame
    · cases hop
  · subst hn
    simp only [isListing, decide_true, Bool.and_self, if_true, World.exec,
      Option.some.injEq] at hexec
    subst hexec
    exact ⟨_, hanswer.symm⟩

/-- Where a listing raises, the sync is over and no row has changed. -/
theorem stays_of_refusing (hn : n < 2) (s : Local) (w : World) :
    (doSync settings).Stays (refusing settings n) s (w, 0) (fun state ↦ state.1.db = w.db)
      fun result _ _ ↦ ∃ e, result = .error e := by
  refine Program.Stays.bind (Program.Stays.call rfl fun choice answer state _ hexec ↦ ?_)
  obtain ⟨hdb₁, hcount₁⟩ := refusing_getActiveQueue hexec
  refine ⟨hdb₁, ?_⟩
  cases answer with
  | error e => exact ⟨e, rfl⟩
  | ok snapshot =>
      refine Program.Stays.bind (Program.Stays.call hdb₁ fun choice answer state' _ hexec ↦ ?_)
      obtain ⟨hdb₂, hcount₂, hraises₂⟩ := refusing_listing hexec
      refine ⟨hdb₂.trans hdb₁, ?_⟩
      cases answer with
      | error e => exact ⟨e, rfl⟩
      | ok queueLabelMrs =>
          refine Program.Stays.bind (Program.Stays.call (hdb₂.trans hdb₁)
            fun choice answer state'' _ hexec ↦ ?_)
          obtain ⟨hdb₃, -, hraises₃⟩ := refusing_listing hexec
          refine ⟨hdb₃.trans (hdb₂.trans hdb₁), ?_⟩
          cases answer with
          | error e => exact ⟨e, rfl⟩
          | ok hotfixLabelMrs =>
              -- both listings answered, so none of them was the one that fails
              exfalso
              have hfirst : state.2 ≠ n := fun h ↦ by
                obtain ⟨e, he⟩ := hraises₂ h
                cases he
              have hsecond : state'.2 ≠ n := fun h ↦ by
                obtain ⟨e, he⟩ := hraises₃ h
                cases he
              simp only at hcount₁
              omega

end Refused

end QueueScheduler

/-! ## The queue after a sync -/

/-- The row `i` stands before the row `j` in the active queue. -/
def StandsBefore (projectId : ℕ) (db : Database) (i j : ℕ) : Prop :=
  ∃ m n : ℕ, m < n ∧ ((getActiveQueue projectId db)[m]?).map QueueItem.queueId = some i ∧
    ((getActiveQueue projectId db)[n]?).map QueueItem.queueId = some j

section Order

open MergeRequestRepository

variable {projectId : ℕ} {db : Database} {a b : MergeRequestRow}

theorem standsBefore_iff (ha : a ∈ getAllActive projectId db) (hb : b ∈ getAllActive projectId db) :
    StandsBefore projectId db a.id b.id ↔ Precedes a b := by
  have hrow : ∀ {k : ℕ} {r}, r ∈ getAllActive projectId db →
      (((getActiveQueue projectId db)[k]?).map QueueItem.queueId = some r.id ↔
        (getAllActive projectId db)[k]? = some r) := by
    intro k r hr
    rw [getActiveQueue_eq, List.getElem?_map, Option.map_map]
    cases hk : (getAllActive projectId db)[k]? with
    | none => simp
    | some r' =>
        have hr' := List.mem_of_getElem? hk
        simp only [Option.map_some, Function.comp_apply, rowToQueueItem_queueId,
          Option.some.injEq]
        exact ⟨fun hid ↦ db.mergeRequests.eq_of_rowId_eq (mem_getAllActive.mp hr').1
          (mem_getAllActive.mp hr).1 hid, fun h ↦ by rw [h]⟩
  have hsorted := pairwise_getAllActive projectId db
  constructor
  · rintro ⟨m, n, hlt, hm, hn⟩
    obtain ⟨hm', rfl⟩ := List.getElem?_eq_some_iff.mp ((hrow ha).mp hm)
    obtain ⟨hn', rfl⟩ := List.getElem?_eq_some_iff.mp ((hrow hb).mp hn)
    exact List.pairwise_iff_getElem.mp hsorted m n hm' hn' hlt
  · intro hab
    obtain ⟨m, hm⟩ := List.mem_iff_getElem?.mp ha
    obtain ⟨n, hn⟩ := List.mem_iff_getElem?.mp hb
    refine ⟨m, n, ?_, (hrow ha).mpr hm, (hrow hb).mpr hn⟩
    obtain ⟨hm', rfl⟩ := List.getElem?_eq_some_iff.mp hm
    obtain ⟨hn', rfl⟩ := List.getElem?_eq_some_iff.mp hn
    rcases lt_trichotomy m n with hlt | rfl | hlt
    · exact hlt
    · exact absurd hab hab.not_symm
    · exact absurd (List.pairwise_iff_getElem.mp hsorted n m hn' hm' hlt) hab.not_symm

end Order

/-- The class of a row in the queue. -/
def MergeRequestRow.priority (r : MergeRequestRow) : QueuePriority :=
  effectivePriority r.isHotfix r.isAutomated

/-- What GitLab's labels say about a row: the labels, as a set, and the class. -/
structure SaysLabels (settings : Settings) (labels : List String) (r : MergeRequestRow) : Prop where
  sameLabels : ∀ label, label ∈ (rowToQueueItem r).labels ↔ label ∈ labels
  priority : ∃ isHotfix isAutomated,
    QueueMetadataUpdater.classifyLabels settings labels = .ok (isHotfix, isAutomated) ∧
      r.priority = effectivePriority isHotfix isAutomated

/-- What a sync makes of the database `db`. -/
structure Converged (settings : Settings) (forge : Forge) (db db' : Database) : Prop where
  /-- The active rows are those of the triggered merge requests, where no completion is
  pending. -/
  active_iff : ∀ iid,
    (∀ r ∈ db.row settings.gitlabProjectId iid, r.pendingCompletion = none) →
      ((∃ r, db'.row settings.gitlabProjectId iid = some r ∧ r.status.active = true) ↔
        forge.Triggered settings iid)
  labelled : ∀ iid r current,
    db'.row settings.gitlabProjectId iid = some r → r.status.active = true →
    forge.getMr iid = some current → SaysLabels settings current.labels r
  kept : ∀ iid r, db.row settings.gitlabProjectId iid = some r → r.status.active = true →
    forge.Triggered settings iid → ∃ r', db'.row settings.gitlabProjectId iid = some r' ∧
      r'.id = r.id ∧ r'.status = r.status
  ordered : ∀ a b a' b',
    a ∈ MergeRequestRepository.getAllActive settings.gitlabProjectId db →
    b ∈ MergeRequestRepository.getAllActive settings.gitlabProjectId db →
    a' ∈ MergeRequestRepository.getAllActive settings.gitlabProjectId db' →
    b' ∈ MergeRequestRepository.getAllActive settings.gitlabProjectId db' →
    a'.id = a.id → b'.id = b.id → a.priority = b.priority → a'.priority = b'.priority →
      (StandsBefore settings.gitlabProjectId db' a'.id b'.id ↔
        StandsBefore settings.gitlabProjectId db a.id b.id)

section Converged

open QueueScheduler

variable {settings : Settings} {forge : Forge} {db db' : Database}

theorem precedes_of_priority_eq {a b : MergeRequestRow} (h : a.priority = b.priority) :
    Precedes a b ↔ a.id < b.id := by
  have hrank : priorityRank a = priorityRank b := by
    rw [← rank_effectivePriority, ← rank_effectivePriority]
    exact congrArg QueuePriority.rank h
  simp [Precedes, hrank]

theorem ordered_of_ids {projectId : ℕ} {a b a' b' : MergeRequestRow}
    (ha : a ∈ MergeRequestRepository.getAllActive projectId db)
    (hb : b ∈ MergeRequestRepository.getAllActive projectId db)
    (ha' : a' ∈ MergeRequestRepository.getAllActive projectId db')
    (hb' : b' ∈ MergeRequestRepository.getAllActive projectId db')
    (hid : a'.id = a.id) (hid' : b'.id = b.id) (h : a.priority = b.priority)
    (h' : a'.priority = b'.priority) :
    StandsBefore projectId db' a'.id b'.id ↔ StandsBefore projectId db a.id b.id := by
  rw [standsBefore_iff ha hb, standsBefore_iff ha' hb', precedes_of_priority_eq h,
    precedes_of_priority_eq h', hid, hid']

theorem saysLabels_of_not_outdated {labels : List String} {r : MergeRequestRow}
    (hclassifies : Classifies settings) (h : outdated settings labels r = false) :
    SaysLabels settings labels r := by
  obtain ⟨⟨isHotfix, isAutomated⟩, hclasses⟩ := hclassifies labels
  simp only [outdated, hclasses, Bool.or_eq_false_iff, decide_eq_false_iff_not, not_not,
    Bool.not_eq_false', QueueMetadataUpdater.sameLabels, decide_eq_true_eq] at h
  obtain ⟨hpriority, hsaved, hreported⟩ := h
  exact ⟨fun label ↦ ⟨fun hl ↦ hsaved hl, fun hl ↦ hreported hl⟩, isHotfix, isAutomated, hclasses,
    hpriority⟩

theorem live_iff {projectId iid : ℕ} :
    live (db.cell projectId iid) = true ↔
      ∃ r, db.row projectId iid = some r ∧ r.status.active = true := by
  rw [live, cell_any _ fun _ ↦ rfl, Option.any_eq_true]

/-- A triggered merge request without a completion is active after a sync. -/
theorem live_of_synced {iid : ℕ} {o o' : Option MergeRequestRow}
    (h : Synced settings forge iid o o') (hfree : owned o = false)
    (htriggered : forge.Triggered settings iid) : live o' = true := by
  obtain ⟨mr, hmr, hiid⟩ := List.mem_map.mp ((mem_iids_gitlabMrs forge).mpr htriggered)
  have hlisted := h.listed mr hmr hiid
  cases hlive : live o with
  | true =>
      rw [hlive, if_pos rfl] at hlisted
      obtain ⟨r, rfl, hactive⟩ := (Option.any_eq_true _ _).mp hlive
      rw [hlisted, live, Option.map_some, Option.any_some, refreshedRow_kept.2.1]
      exact hactive
  | false =>
      rw [hlive, if_neg Bool.false_ne_true, Added, hfree, if_neg Bool.false_ne_true] at hlisted
      obtain ⟨r, classes, rfl, -, hinserted⟩ := hlisted
      rw [live, Option.any_some, hinserted.status]
      rfl

theorem converged_of_synced (hclassifies : Classifies settings)
    (h : ∀ iid, Synced settings forge iid (db.cell settings.gitlabProjectId iid)
      (db'.cell settings.gitlabProjectId iid)) : Converged settings forge db db' where
  active_iff := by
    intro iid hfree
    rw [← live_iff]
    constructor
    · intro hlive
      by_contra hlost
      rw [(h iid).inSync.lost hlost] at hlive
      cases hlive
    · refine live_of_synced (h iid) ?_
      rw [owned, cell_any _ fun _ ↦ rfl]
      cases hrow : db.row settings.gitlabProjectId iid with
      | none => rfl
      | some r => simp [hfree r hrow]
  labelled := by
    intro iid r current hrow hactive hcurrent
    have hlive : live (db'.cell settings.gitlabProjectId iid) = true :=
      live_iff.mpr ⟨r, hrow, hactive⟩
    have htriggered : forge.Triggered settings iid := by
      by_contra hlost
      rw [(h iid).inSync.lost hlost] at hlive
      cases hlive
    obtain ⟨mr, hmr, rfl⟩ := List.mem_map.mp ((mem_iids_gitlabMrs forge).mpr htriggered)
    obtain ⟨current', hcurrent', -, hlabels, -⟩ := mem_gitlabMrs forge hmr
    obtain rfl : current' = current := Option.some.inj (hcurrent'.symm.trans hcurrent)
    have hfresh := (h mr.iid).inSync.listed mr hmr rfl
    rw [hlive, if_pos rfl, cell_of_row hrow, Option.any_some] at hfresh
    rw [hlabels]
    exact saysLabels_of_not_outdated hclassifies hfresh
  kept := by
    intro iid r hrow hactive htriggered
    obtain ⟨mr, hmr, rfl⟩ := List.mem_map.mp ((mem_iids_gitlabMrs forge).mpr htriggered)
    have hlisted := (h mr.iid).listed mr hmr rfl
    rw [live_iff.mpr ⟨r, hrow, hactive⟩, if_pos rfl, cell_of_row hrow, Option.map_some] at hlisted
    obtain ⟨r', hrow', hr'⟩ := Option.map_eq_some_iff.mp hlisted
    obtain ⟨hid, hstatus, -⟩ := @refreshedRow_kept settings mr.labels r.quiet
    rw [← hr'] at hid hstatus
    exact ⟨r', hrow', hid, hstatus⟩
  ordered := fun _ _ _ _ ha hb ha' hb' hid hid' hprio hprio' ↦
    ordered_of_ids ha hb ha' hb' hid hid' hprio hprio'

end Converged

open QueueScheduler in
/-- A sync on its own makes the queue agree with GitLab, and another one right after it
changes nothing; a sync whose listing raises changes nothing either. -/
theorem doSync_converges (settings : Settings) (forge : Forge) (hclassifies : Classifies settings)
    {w : World} (hlocks : w.locks = []) (s : Local) (log : List Op) :
    ((doSync settings).Finishes (serving settings forge) s log w fun result s' log' w' ↦
      (∃ stats, result = .ok stats) ∧ Converged settings forge w.db w'.db ∧
      (doSync settings).Finishes (serving settings forge) s' log' w' fun result _ _ w'' ↦
        ∃ stats, result = .ok stats ∧ stats.added = 0 ∧ stats.removed = 0 ∧ stats.updated = 0 ∧
          w''.cell settings = w'.cell settings) ∧
    ∀ n < 2, (doSync settings).Stays (refusing settings n) s (w, 0)
      (fun state ↦ state.1.db = w.db) fun result _ _ ↦ ∃ e, result = .error e := by
  refine ⟨(finishes_doSync hclassifies hlocks).mono ?_, fun n hn ↦ stays_of_refusing hn s w⟩
  rintro _ s' log' w' ⟨stats, rfl, -, hlocks', hsynced⟩
  refine ⟨⟨stats, rfl⟩, converged_of_synced hclassifies hsynced, ?_⟩
  have hsettled : ∀ iid, InSync settings forge iid (w'.cell settings iid) :=
    fun iid ↦ (hsynced iid).inSync
  refine (finishes_doSync hclassifies hlocks').mono ?_
  rintro _ s'' log'' w'' ⟨stats', rfl, hcounted, -, hsynced'⟩
  obtain ⟨hadded, hremoved, hupdated⟩ := hcounted.eq_zero hsettled
  refine ⟨stats', rfl, hadded, hremoved, hupdated, ?_⟩
  funext iid
  exact (hsettled iid).synced (hsynced' iid)

/-! ### A queue that lags behind -/

def syncSettings : Settings where
  gitlabProjectId := 1
  rounds := 0

/-- One merge request was labelled, one is as it was, one became a hotfix and one lost its
label. -/
def relabelledMrs : List MergeRequest :=
  [{ waitingMr 6 with labels := ["merge_queue"] }, waitingMr 7,
    { waitingMr 8 with labels := ["merge_queue", "hotfix"] }, { waitingMr 9 with labels := [] }]

def relabelledForge : Forge where
  getMr iid := relabelledMrs.find? fun mr ↦ mr.iid = iid
  listing label := relabelledMrs.filter fun mr ↦ label ∈ mr.labels
  agrees := by
    intro label mr hmr
    obtain ⟨hmem, hlabel⟩ := List.mem_filter.mp hmr
    refine ⟨of_decide_eq_true hlabel, mr, ?_⟩
    simp only [relabelledMrs, List.mem_cons, List.not_mem_nil, or_false] at hmem
    rcases hmem with rfl | rfl | rfl | rfl <;> exact ⟨rfl, rfl, rfl⟩
  complete := by
    intro label iid current hcurrent _ hlabel
    have hiid : current.iid = iid := by simpa using List.find?_some hcurrent
    exact ⟨current, List.mem_filter.mpr ⟨List.mem_of_find?_eq_some hcurrent, by simpa⟩, hiid⟩

/-- The queue before any of it was seen. -/
def laggingQueue : Database :=
  (run ([7, 8, 9].map fun iid ↦ queueCall (.addToQueue 1 (waitingMr iid) false)) .empty).db

theorem triggered_relabelledForge {iid : ℕ} :
    relabelledForge.Triggered syncSettings iid ↔ iid ∈ [6, 7, 8] := by
  constructor
  · rintro ⟨current, hcurrent, -, hlabel⟩
    change relabelledMrs.find? (fun mr ↦ mr.iid = iid) = some current at hcurrent
    have hiid : current.iid = iid := by simpa using List.find?_some hcurrent
    have hmem : current ∈ relabelledMrs := List.mem_of_find?_eq_some hcurrent
    simp only [relabelledMrs, List.mem_cons, List.not_mem_nil, or_false] at hmem
    rcases hmem with rfl | rfl | rfl | rfl
    · simp [← hiid, waitingMr]
    · simp [← hiid, waitingMr]
    · simp [← hiid, waitingMr]
    · simp at hlabel
  · intro hiid
    simp only [List.mem_cons, List.not_mem_nil, or_false] at hiid
    rcases hiid with rfl | rfl | rfl <;> exact ⟨_, rfl, rfl, Or.inl List.mem_cons_self⟩

theorem doSync_converges_from_lagging :
    (QueueScheduler.doSync syncSettings).Finishes (serving syncSettings relabelledForge) {} []
      { db := laggingQueue } fun _ _ _ w' ↦
        Converged syncSettings relabelledForge laggingQueue w'.db ∧
        ∀ iid, (∃ r, w'.db.row 1 iid = some r ∧ r.status.active = true) ↔ iid ∈ [6, 7, 8] := by
  have hopen : ∀ r ∈ laggingQueue.mergeRequests.rows, r.pendingCompletion = none := by
    decide +kernel
  refine ((doSync_converges syncSettings relabelledForge (fun _ ↦ ⟨_, rfl⟩)
    (w := { db := laggingQueue }) rfl {} []).1).mono fun _ _ _ _ h ↦ ⟨h.2.1, fun iid ↦ ?_⟩
  rw [← triggered_relabelledForge]
  exact h.2.1.active_iff iid fun r hr ↦ hopen r (KeyedTable.mem_of_byKey (Option.mem_def.mp hr))

end MergeQueue
