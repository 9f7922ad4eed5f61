import MergeQueue.QueueCompletion
import MergeQueue.QueueMetadata

/-!
# The polling scheduler

A sync lists the merge requests that carry a trigger label, adds those that are not
queued, removes the queued ones that are not listed, and refreshes the labels of the
others.
-/

namespace MergeQueue

open Interleave (Program)

namespace QueueScheduler

structure SyncStats where
  mrsInGitlab : ℕ := 0
  mrsInQueue : ℕ := 0
  added : ℕ := 0
  removed : ℕ := 0
  updated : ℕ := 0
  unchanged : ℤ := 0
  deriving DecidableEq, Repr

variable (settings : Settings)

/-- A failure to tell the connected clients is only logged. -/
def broadcastQueueUpdate : Prog Unit :=
  if settings.websocketManager then
    tryCatch
      (do
        let _ ← Prog.db (.getActiveQueue settings.gitlabProjectId)
        Prog.await .broadcast)
      fun e ↦ if e.isException then pure () else throw e
  else pure ()

/-- `dict[mr.iid] = mr`: a key that is present keeps its place. -/
def putByIid (mrs : List MergeRequest) (mr : MergeRequest) : List MergeRequest :=
  if mrs.any fun m ↦ m.iid = mr.iid then mrs.map fun m ↦ if m.iid = mr.iid then mr else m
  else mrs ++ [mr]

/-- The values of `gitlab_mrs_dict`. -/
def mergeListings (queueLabelMrs hotfixLabelMrs : List MergeRequest) : List MergeRequest :=
  (queueLabelMrs ++ hotfixLabelMrs).foldl putByIid []

def addMrToQueue (mr : MergeRequest) : Prog Unit := do
  let _ ← Prog.db (.addToQueue settings.gitlabProjectId mr
    (mr.labels.contains settings.hotfixLabel))
  return ()

/-- Leaves a row to the completion that owns it. -/
def addMissingMr (mr : MergeRequest) : Prog Bool := do
  let existing ← Prog.getQueueItem settings.gitlabProjectId mr.iid
  if existing.any fun item ↦ item.pendingCompletion.isSome then pure false
  else do
    addMrToQueue settings mr
    return true

def addMissingMrs (gitlabMrs : List MergeRequest) (queueMrIids : List ℕ) : Prog ℕ :=
  Program.tally (addMissingMr settings) (gitlabMrs.filter fun mr ↦ !queueMrIids.contains mr.iid)

def shouldRemoveFromQueue (mrIid : ℕ) : Prog Bool :=
  tryCatch
    (do
      let mr : MergeRequest ← Prog.gitlab (.getMr mrIid false)
      if mr.state ≠ .opened then pure true
      else
        return !mr.labels.contains settings.queueLabel && !mr.labels.contains settings.hotfixLabel)
    fun e ↦ if e.isKind .notFound then pure true else throw e

def removeOrphanedMr (item : QueueItem) : Prog Bool := do
  let orphaned ← shouldRemoveFromQueue settings item.mrIid
  if orphaned then do
    let _ ← Prog.db (.removeFromQueue settings.gitlabProjectId item.mrIid)
    return true
  else pure false

def removeOrphanedMrs (queueItems : List QueueItem) (gitlabMrIids : List ℕ) : Prog ℕ :=
  Program.tally (removeOrphanedMr settings)
    (queueItems.filter fun item ↦ !gitlabMrIids.contains item.mrIid)

/-- Refreshes a merge request that both reads of the queue found, under the revision
of the first. -/
def refreshListedMr (queueMrIids : List ℕ) (revisions : List (ℕ × ℕ × ℕ)) (mr : MergeRequest) :
    Prog Bool :=
  if queueMrIids.contains mr.iid then
    match revisions.lookup mr.iid with
    | none => pure false
    | some revision =>
        QueueMetadataUpdater.refresh settings mr.iid mr.labels (some revision) false none
  else pure false

def finalizeSync (stats : SyncStats) : Prog SyncStats := do
  if settings.websocketManager then broadcastQueueUpdate settings
  let updatedQueue : List QueueItem ← Prog.db (.getActiveQueue settings.gitlabProjectId)
  return { stats with mrsInQueue := updatedQueue.length }

def doSync : Prog SyncStats := do
  let snapshot : List QueueItem ← Prog.db (.getActiveQueue settings.gitlabProjectId)
  let revisions := snapshot.map fun item ↦ (item.mrIid, item.queueId, item.metadataVersion)
  let queueLabelMrs : List MergeRequest ← Prog.gitlab (.listMrsWithLabel settings.queueLabel)
  let hotfixLabelMrs : List MergeRequest ← Prog.gitlab (.listMrsWithLabel settings.hotfixLabel)
  let gitlabMrs := mergeListings queueLabelMrs hotfixLabelMrs
  let gitlabMrIids := gitlabMrs.map MergeRequest.iid
  let queueItems : List QueueItem ← Prog.db (.getActiveQueue settings.gitlabProjectId)
  let queueMrIids := queueItems.map QueueItem.mrIid
  let added ← addMissingMrs settings gitlabMrs queueMrIids
  let removed ← removeOrphanedMrs settings queueItems gitlabMrIids
  let updated ← Program.tally (refreshListedMr settings queueMrIids revisions) gitlabMrs
  QueueMetadataUpdater.retryPending settings
  let stats : SyncStats :=
    { mrsInGitlab := gitlabMrs.length
      mrsInQueue := queueItems.length
      added
      removed
      updated
      unchanged := (gitlabMrIids.filter queueMrIids.contains).length - updated }
  if 0 < added ∨ 0 < removed ∨ 0 < updated then finalizeSync settings stats
  else pure stats

def syncQueue : Prog SyncStats := do
  let recovered ← QueueCompletion.recoverAll settings
  let stats ← doSync settings
  if recovered then broadcastQueueUpdate settings
  return stats

end QueueScheduler

end MergeQueue
