import MergeQueue.GitLabClient

/-!
# Which commit a merge call merges

The merge call compares the head of the source branch on a read of its own, and
the request that merges names no commit.  A merge therefore takes the expected
commit exactly when the head did not move after the last read.
-/

namespace MergeQueue

/-- The head that `get_mr` returned from this exchange. -/
def Sent.readSha (x : Sent) : Option String :=
  match x.request, x.answer with
  | .getMr _, .response response =>
      if response.isSuccess && response.labelsError.isNone then
        response.mergeRequest.map MergeRequest.sha
      else none
  | _, _ => none

/-- The head that the last `get_mr` returned. -/
def lastRead (log : List Sent) : Option String := (log.filterMap Sent.readSha).getLast?

/-- Only the commit `s` was merged. -/
def MergesOnly (s : String) (log : List Sent) : Prop :=
  ∀ x ∈ log, ∀ head, x.merged = some head → head = s

/-- The head that was merged is the one that was read last before. -/
def HeadUnmoved (log : List Sent) : Prop :=
  ∀ n x head, log[n]? = some x → x.merged = some head → lastRead (log.take n) = some head

/-- The head that was read last before a merge is `s`. -/
def MergesChecked (s : String) (log : List Sent) : Prop :=
  ∀ n x, log[n]? = some x → x.merged ≠ none → lastRead (log.take n) = some s

theorem MergesChecked.take {s : String} {log : List Sent} (h : MergesChecked s log)
    (cut : ℕ) : MergesChecked s (log.take cut) := by
  intro n x hx hmerged
  rw [List.getElem?_take] at hx
  split_ifs at hx with hn
  rw [List.take_take, Nat.min_eq_left (Nat.le_of_lt hn)]
  exact h n x hx hmerged

theorem mergesOnly_iff_headUnmoved {s : String} {log : List Sent}
    (h : MergesChecked s log) : MergesOnly s log ↔ HeadUnmoved log := by
  constructor
  · intro honly n x head hx hmerged
    rw [honly x (List.mem_of_getElem? hx) head hmerged]
    exact h n x hx (by simp [hmerged])
  · intro hunmoved x hx head hmerged
    obtain ⟨n, hn⟩ := List.mem_iff_getElem?.mp hx
    have hread := hunmoved n x head hn hmerged
    rw [h n x hn (by simp [hmerged])] at hread
    exact (Option.some.inj hread).symm

theorem Sent.readSha_of_isMerge {x : Sent} (h : x.request.isMerge = true) : x.readSha = none := by
  obtain ⟨request, answer, merged⟩ := x
  cases request with
  | getMr iid => cases h
  | mergeMr iid method sha => rfl
  | other method path => cases h

theorem lastRead_append_of_merges {log xs : List Sent}
    (hxs : ∀ x ∈ xs, x.request.isMerge = true) : lastRead (log ++ xs) = lastRead log := by
  have hnone : xs.filterMap Sent.readSha = [] :=
    List.filterMap_eq_nil_iff.mpr fun x hx ↦ Sent.readSha_of_isMerge (hxs x hx)
  simp [lastRead, hnone]

/-- Sending a request keeps the merges checked, if it does not merge or the
expected head was read last. -/
theorem MergesChecked.sends {ε : Type} {s : String} {r : ApiRequest} {w w' : ClientWorld}
    {result : Except ε Response} (h : MergesChecked s w.trace) (hsends : Sends r w w' result)
    (hread : r.isMerge = true → lastRead w.trace = some s) : MergesChecked s w'.trace := by
  obtain ⟨xs, hxs, hall, -⟩ := hsends
  rw [hxs]
  intro n x hx hmerged
  by_cases hn : n < w.trace.length
  · rw [List.getElem?_append_left hn] at hx
    rw [List.take_append_of_le_length (Nat.le_of_lt hn)]
    exact h n x hx hmerged
  · have hle : w.trace.length ≤ n := Nat.le_of_not_lt hn
    rw [List.getElem?_append_right hle] at hx
    have hmerge : r.isMerge = true := (hall x (List.mem_of_getElem? hx)).2 hmerged
    rw [List.take_append, List.take_of_length_le hle, lastRead_append_of_merges]
    · exact hread hmerge
    · intro y hy
      rw [(hall y (List.mem_of_mem_take hy)).1]
      exact hmerge

section Merge

variable {settings : ClientSettings} {tenacity : Tenacity} {s : String}

/-- What `get_mr` returns is what was read last. -/
theorem getMr_checked (iid : ℕ) {w w' : ClientWorld} {result : Except ClientError MergeRequest}
    (hget : getMr settings tenacity iid w = (result, w')) (h : MergesChecked s w.trace) :
    MergesChecked s w'.trace ∧
      ∀ mr, result = .ok mr → lastRead w'.trace = some mr.sha := by
  have hsends := request_sends settings tenacity (.getMr iid) w
  have hworld : (request settings tenacity (.getMr iid) w).2 = w' := by
    rw [← parseMrSnapshot_world]
    exact congrArg Prod.snd hget
  rw [hworld] at hsends
  refine ⟨h.sends hsends (by simp [ApiRequest.isMerge]), ?_⟩
  rintro mr rfl
  obtain ⟨response, hok, hlabels, hbody⟩ := parseMrSnapshot_eq_ok (congrArg Prod.fst hget)
  obtain ⟨xs, hxs, hall, hlast⟩ := hsends
  obtain ⟨hsuccess, x, hx, hanswer⟩ := hlast response hok
  have hread : x.readSha = some mr.sha := by
    have hrequest := (hall x (List.mem_of_getLast? hx)).1
    simp [Sent.readSha, hrequest, hanswer, hsuccess, hlabels, hbody]
  obtain ⟨ys, rfl⟩ := List.getLast?_eq_some_iff.mp hx
  simp only [hxs, lastRead, List.filterMap_append, List.filterMap_cons_some hread,
    List.filterMap_nil]
  simp

theorem executeMerge_checked (iid : ℕ) {w w' : ClientWorld}
    {result : Except ClientError MergeRequest}
    (hmerge : executeMerge settings tenacity iid w = (result, w')) (h : MergesChecked s w.trace)
    (hread : lastRead w.trace = some s) : MergesChecked s w'.trace := by
  have hsends := request_sends settings tenacity (.mergeMr iid "ff" none) w
  rw [executeMerge] at hmerge
  generalize request settings tenacity (.mergeMr iid "ff" none) w = out at hmerge hsends
  have hchecked := h.sends hsends fun _ ↦ hread
  obtain ⟨e | response, w₁⟩ := out
  · simp only [parseMergeRequest, Prod.mk.injEq] at hmerge
    exact hmerge.2 ▸ hchecked
  · simp only [parseMergeRequest] at hmerge
    split at hmerge <;> cases hmerge <;> exact hchecked

theorem sha_eq_of_validateShaUnchanged {iid : ℕ} {current : String} (hs : s ≠ "")
    (h : validateShaUnchanged iid (some s) current = .ok ()) : current = s := by
  by_contra hne
  simp [validateShaUnchanged, hs, hne] at h

/-- However GitLab answers, no attempt merges without having read the expected head. -/
theorem mergeAttempts_checked (hs : s ≠ "") (iid attempts : ℕ) {w : ClientWorld}
    (h : MergesChecked s w.trace) :
    MergesChecked s (mergeAttempts settings tenacity iid (some s) attempts w).2.trace := by
  induction attempts generalizing w with
  | zero => exact h
  | succ attempts ih =>
      rw [mergeAttempts]
      rcases hget : getMr settings tenacity iid w with ⟨e | mr, w₁⟩
      · exact (getMr_checked iid hget h).1
      · obtain ⟨h₁, hread⟩ := getMr_checked iid hget h
        by_cases hmerged : mr.state = .merged
        · simpa only [if_pos hmerged] using h₁
        · simp only [if_neg hmerged]
          cases hvalid : validateShaUnchanged iid (some s) mr.sha with
          | error e => exact h₁
          | ok u =>
              have hlast : lastRead w₁.trace = some s := by
                rw [hread mr rfl, sha_eq_of_validateShaUnchanged hs hvalid]
              simp only
              split_ifs with hchecking hready
              · exact ih h₁
              · exact h₁
              · rcases hmerge : executeMerge settings tenacity iid w₁ with ⟨e | mr', w₂⟩
                · have h₂ := executeMerge_checked iid hmerge h₁ hlast
                  cases e with
                  | gitlab e =>
                      simp only
                      cases handleMergeApiError e iid mr with
                      | error e => exact h₂
                      | ok u => exact ih h₂
                  | transport => exact h₂
                  | malformedBody => exact h₂
                · exact executeMerge_checked iid hmerge h₁ hlast

/-- Whatever GitLab answers and whenever the call is cut off, it merges only the
expected commit exactly when no push lands, and no read is stale, between the
last read and a merge that GitLab accepts. -/
theorem mergeMr_mergesOnly_iff (settings : ClientSettings) (tenacity : Tenacity)
    (iid : ℕ) {s : String} (hs : s ≠ "") {w : ClientWorld} (hstart : w.trace = []) (cut : ℕ) :
    MergesOnly s ((mergeMr settings tenacity iid (some s) w).2.trace.take cut) ↔
      HeadUnmoved ((mergeMr settings tenacity iid (some s) w).2.trace.take cut) := by
  have hempty : MergesChecked s w.trace := by
    rw [hstart]
    intro n x hx
    simp at hx
  exact mergesOnly_iff_headUnmoved ((mergeAttempts_checked hs iid _ hempty).take cut)

end Merge

/-! ## A push between the read and the merge -/

def sampleMr (sha : String) : MergeRequest where
  iid := 7
  title := "Fix the build"
  state := .opened
  labels := ["merge_queue"]
  sha := sha
  sourceBranch := "fix"
  targetBranch := "master"
  mergeStatus := "can_be_merged"
  author := { id := 1, name := "Dev", username := "dev" }

/-- The read reports the tested head, then `pushes` land and GitLab accepts the merge. -/
def mergeAfterPushes (pushes : List String) : ClientWorld where
  breaker := createCircuitBreaker .default
  head := "tested"
  exchanges := fun n ↦
    { pushes := if n = 1 then pushes else []
      accepts := true
      answer := .response { statusCode := 200, mergeRequest := some (sampleMr "tested") } }
  clock := fun n ↦ n

/-- What was sent by the merge call of the tested head. -/
def sentAfterPushes (pushes : List String) : List Sent :=
  (mergeMr .default reraising 7 (some "tested") (mergeAfterPushes pushes)).2.trace

theorem mergeMr_mergesOnly_iff_after_push :
    ¬ HeadUnmoved ((sentAfterPushes ["pushed"]).take 2) := by
  have hpushed : ¬ MergesOnly "tested" ((sentAfterPushes ["pushed"]).take 2) := by
    intro honly
    have hmerged := honly
      { request := .mergeMr 7 "ff" none
        answer := .response { statusCode := 200, mergeRequest := some (sampleMr "tested") }
        merged := some "pushed" } (by decide) "pushed" rfl
    exact absurd hmerged (by decide)
  exact fun hunmoved ↦ hpushed
    ((mergeMr_mergesOnly_iff {} reraising 7 (by decide) rfl 2).mpr hunmoved)

/-- A push that lands after the read is merged untested. -/
theorem mergeMr_merges_pushed_head :
    ¬ ∀ (settings : ClientSettings) (tenacity : Tenacity) (iid : ℕ) (s : String)
        (w : ClientWorld), s ≠ "" → w.trace = [] →
        MergesOnly s (mergeMr settings tenacity iid (some s) w).2.trace := by
  intro hclaim
  have honly := hclaim {} reraising 7 "tested" (mergeAfterPushes ["pushed"]) (by decide) rfl
  have hmerged := honly
    { request := .mergeMr 7 "ff" none
      answer := .response { statusCode := 200, mergeRequest := some (sampleMr "tested") }
      merged := some "pushed" } (by decide) "pushed" rfl
  exact absurd hmerged (by decide)

end MergeQueue
