import MergeQueue.Rows

/-!
# Merge requests, pipelines and jobs as GitLab reports them
-/

namespace MergeQueue

/-- The state of a merge request in GitLab. -/
inductive MrState
  | opened
  | closed
  | merged
  | other (name : String)
  deriving DecidableEq, Repr

structure Author where
  id : ℕ
  name : String
  username : String
  avatarUrl : Option String := none
  deriving DecidableEq, Repr

structure MergeRequest where
  iid : ℕ
  title : String
  state : MrState
  labels : List String
  sha : String
  sourceBranch : String
  targetBranch : String
  mergeStatus : String
  author : Author
  projectId : ℕ := 0
  hasConflicts : Bool := false
  rebaseInProgress : Bool := false
  mergeError : Option String := none
  detailedMergeStatus : Option String := none
  divergedCommitsCount : Option ℕ := none
  updatedAt : Option ℤ := none
  deriving DecidableEq, Repr

structure Pipeline where
  id : ℕ
  status : PipelineStatus
  sha : String
  ref : String
  webUrl : Option String := none
  createdAt : Option ℤ := none
  deriving DecidableEq, Repr

structure Job where
  id : ℕ
  name : String
  status : PipelineStatus
  stage : String
  deriving DecidableEq, Repr

end MergeQueue
