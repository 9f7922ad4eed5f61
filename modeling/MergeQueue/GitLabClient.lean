import MergeQueue.CircuitBreaker
import MergeQueue.GitLabModels

/-!
# The GitLab client

A request passes the circuit breaker, is sent and, on a server error or a rate
limit, sent again.  GitLab is an arbitrary sequence of exchanges: before each
request that it handles, pushes may land on the source branch, and what it
answers need not be what it did.
-/

namespace MergeQueue

/-! ## Requests, answers and errors -/

inductive ApiRequest
  | getMr (iid : ℕ)
  | mergeMr (iid : ℕ) (mergeMethod : String) (sha : Option String)
  | other (method path : String)
  deriving DecidableEq, Repr

/-- A response, with the error text that the client extracts from its body, what
`_parse_mr_snapshot` finds wrong with the labels in it, and the merge request its body
describes. -/
structure Response where
  statusCode : ℕ
  errorMessage : String := ""
  retryAfter : Option ℕ := none
  labelsError : Option String := none
  mergeRequest : Option MergeRequest := none
  deriving DecidableEq, Repr

def Response.isSuccess (response : Response) : Bool :=
  decide (200 ≤ response.statusCode ∧ response.statusCode < 300)

inductive HttpAnswer
  | response (response : Response)
  | transportError
  deriving DecidableEq, Repr

inductive ErrorKind
  | api
  | notFound
  | conflict
  | rateLimit
  | server
  | circuitOpen
  deriving DecidableEq, Repr

/-- `GitLabAPIError` and its subclasses. -/
structure GitLabError where
  kind : ErrorKind
  message : String
  statusCode : Option ℕ := none
  retryAfter : Option ℤ := none
  deriving DecidableEq, Repr

/-- What a call of the client may raise: an API error, an error of the transport,
or the failure to parse a body. -/
inductive ClientError
  | gitlab (error : GitLabError)
  | transport
  | malformedBody
  deriving DecidableEq, Repr

/-- The retry library ends an exhausted loop by raising the last exception
itself, or a wrapper around it. -/
inductive Raised
  | own (error : ClientError)
  | retryError (last : Option ClientError)
  deriving DecidableEq, Repr

/-- What the retry library raises for `reraise` and the last attempt's exception. -/
abbrev Tenacity := Bool → ClientError → Raised

/-- The documented behaviour: with `reraise` the last exception, else the wrapper. -/
def reraising : Tenacity := fun reraise e ↦ if reraise then .own e else .retryError (some e)

/-- The settings of the client, as their validation accepts them. -/
structure ClientSettings where
  apiMaxRetries : ℕ := 5
  mergeStatusRetryMax : ℕ := 24
  circuitBreakerFailureThreshold : ℕ := 5
  circuitBreakerHalfOpenTimeout : ℤ := 30000000
  circuitBreakerSuccessThreshold : ℕ := 1
  one_le_mergeStatusRetryMax : 1 ≤ mergeStatusRetryMax := by decide
  one_le_failureThreshold : 1 ≤ circuitBreakerFailureThreshold := by decide
  deriving DecidableEq

/-- The settings where none of them is given. -/
def ClientSettings.default : ClientSettings := {}

def createCircuitBreaker (settings : ClientSettings) : CircuitBreaker where
  failureThreshold := settings.circuitBreakerFailureThreshold
  halfOpenTimeout := settings.circuitBreakerHalfOpenTimeout
  successThreshold := settings.circuitBreakerSuccessThreshold

/-! ## The world of a client -/

/-- What happens around one HTTP request: the heads pushed to the source branch
before GitLab handles it, whether GitLab accepts a merge, and its answer. -/
structure Exchange where
  pushes : List String := []
  accepts : Bool := false
  answer : HttpAnswer
  deriving DecidableEq, Repr

/-- A request that was sent, and the head that GitLab merged on it. -/
structure Sent where
  request : ApiRequest
  answer : HttpAnswer
  merged : Option String := none
  deriving DecidableEq, Repr

structure ClientWorld where
  breaker : CircuitBreaker
  lastRequestSucceeded : Option Bool := none
  head : String
  exchanges : ℕ → Exchange
  clock : ℕ → ℤ
  ticks : ℕ := 0
  trace : List Sent := []

namespace ClientWorld

def tick (w : ClientWorld) : ℤ × ClientWorld := (w.clock w.ticks, { w with ticks := w.ticks + 1 })

/-- GitLab merges the head at the moment it handles an accepted merge request,
and refuses when the request names another head. -/
def handled (x : Exchange) (head : String) : ApiRequest → Option String
  | .mergeMr _ _ sha => if x.accepts && sha.all (· = head) then some head else none
  | .getMr _ => none
  | .other _ _ => none

/-- The exchange around the next request. -/
def nextExchange (w : ClientWorld) : Exchange := w.exchanges w.trace.length

/-- The head of the source branch when GitLab handles the next request. -/
def nextHead (w : ClientWorld) : String := w.nextExchange.pushes.getLast?.getD w.head

def send (request : ApiRequest) (w : ClientWorld) : HttpAnswer × ClientWorld :=
  let sent : Sent :=
    { request
      answer := w.nextExchange.answer
      merged := handled w.nextExchange w.nextHead request }
  (sent.answer, { w with head := w.nextHead, trace := w.trace ++ [sent] })

end ClientWorld

/-! ## One request -/

/-- The exception that a response raises. -/
def handleErrorResponse (response : Response) : Except ClientError Unit :=
  let raised (kind : ErrorKind) (message : String) : Except ClientError Unit :=
    .error (.gitlab
      { kind
        message
        statusCode := some response.statusCode
        retryAfter := if kind = .rateLimit then response.retryAfter.map Int.ofNat else none })
  if response.isSuccess then .ok ()
  else if response.statusCode = 404 then
    raised .notFound s!"Resource not found: {response.errorMessage}"
  else if response.statusCode = 409 then raised .conflict s!"Conflict: {response.errorMessage}"
  else if response.statusCode = 429 then
    raised .rateLimit s!"Rate limit exceeded: {response.errorMessage}"
  else if 500 ≤ response.statusCode ∧ response.statusCode < 600 then
    raised .server s!"Server error: {response.errorMessage}"
  else raised .api s!"API error: {response.errorMessage}"

def executeSingleRequest (request : ApiRequest) (w : ClientWorld) :
    Except ClientError Response × ClientWorld :=
  match w.send request with
  | (.transportError, w) => (.error .transport, w)
  | (.response response, w) =>
      match handleErrorResponse response with
      | .error e => (.error e, w)
      | .ok () => (.ok response, { w with breaker := w.breaker.recordSuccess })

/-- The exceptions after which a request is sent again. -/
def ClientError.retryable : ClientError → Bool
  | .gitlab e => e.kind = .server || e.kind = .rateLimit
  | .transport => false
  | .malformedBody => false

section Request

variable (settings : ClientSettings) (tenacity : Tenacity)

/-- Sends a request, and again up to `retries` times. -/
def executeAttempts (request : ApiRequest) (retries : ℕ) (w : ClientWorld) :
    Except Raised Response × ClientWorld :=
  match executeSingleRequest request w with
  | (.ok response, w) => (.ok response, w)
  | (.error e, w) =>
      if e.retryable then
        match retries with
        | 0 => (.error (tenacity true e), w)
        | retries + 1 => executeAttempts request retries w
      else (.error (.own e), w)

/-- The retry loop stops after attempt number `api_max_retries`, and never
before the first. -/
def executeWithRetry (request : ApiRequest) (w : ClientWorld) :
    Except Raised Response × ClientWorld :=
  executeAttempts tenacity request (settings.apiMaxRetries - 1) w

def request (r : ApiRequest) (w : ClientWorld) : Except ClientError Response × ClientWorld :=
  let (now, w) := w.tick
  match w.breaker.beforeCall now with
  | .error retryAfter =>
      (.error (.gitlab
        { kind := .circuitOpen, message := "GitLab API unavailable", retryAfter }),
        { w with lastRequestSucceeded := some false })
  | .ok breaker =>
      match executeWithRetry settings tenacity r { w with breaker } with
      | (.ok response, w) => (.ok response, { w with lastRequestSucceeded := some true })
      | (.error (.own e), w) => (.error e, { w with lastRequestSucceeded := some false })
      | (.error (.retryError (some e)), w) =>
          let (now, w) := w.tick
          (.error e,
            { w with
              lastRequestSucceeded := some false
              breaker := w.breaker.recordFailure now })
      | (.error (.retryError none), w) =>
          (.error (.gitlab { kind := .api, message := "Request failed after retries" }),
            { w with lastRequestSucceeded := some false })

/-! ## Reading and merging a merge request -/

/-- The merge request in the body of a response. -/
def parseMergeRequest : Except ClientError Response × ClientWorld →
    Except ClientError MergeRequest × ClientWorld
  | (.error e, w) => (.error e, w)
  | (.ok response, w) =>
      match response.mergeRequest with
      | some mr => (.ok mr, w)
      | none => (.error .malformedBody, w)

/-- A merge request is classified only by a complete snapshot of its labels. -/
def parseMrSnapshot : Except ClientError Response × ClientWorld →
    Except ClientError MergeRequest × ClientWorld
  | (.error e, w) => (.error e, w)
  | (.ok response, w) =>
      match response.labelsError with
      | some message => (.error (.gitlab { kind := .api, message }), w)
      | none => parseMergeRequest (.ok response, w)

def getMr (iid : ℕ) (w : ClientWorld) : Except ClientError MergeRequest × ClientWorld :=
  parseMrSnapshot (request settings tenacity (.getMr iid) w)

/-- The merge call names the method of the merge and no commit. -/
def executeMerge (iid : ℕ) (w : ClientWorld) : Except ClientError MergeRequest × ClientWorld :=
  parseMergeRequest (request settings tenacity (.mergeMr iid "ff" none) w)

/-- The first eight characters of a commit, for a message. -/
def shortSha (sha : String) : String := String.ofList (sha.toList.take 8)

def validateShaUnchanged (iid : ℕ) (expectedSha : Option String) (currentSha : String) :
    Except ClientError Unit :=
  match expectedSha with
  | none => .ok ()
  | some expected =>
      if expected ≠ "" ∧ currentSha ≠ expected then
        let got := if currentSha ≠ "" then shortSha currentSha else "unknown"
        .error (.gitlab
          { kind := .conflict
            message :=
              s!"MR !{iid} SHA changed during merge (expected: {shortSha expected}, got: {got})"
            statusCode := some 409 })
      else .ok ()

/-- Why retrying a refused merge is pointless, by `detailed_merge_status`. -/
def nonRetryableMergeStatuses : List (String × String) :=
  [("discussions_not_resolved", "unresolved discussions prevent merge"),
    ("not_approved", "missing required approvals"),
    ("draft_status", "MR is in Draft status"),
    ("merge_request_blocked", "MR is blocked by another MR"),
    ("jira_association_missing", "missing Jira association"),
    ("conflict", "merge conflicts detected"),
    ("need_rebase", "rebase required")]

def getMergeBlockReason (detailedMergeStatus : Option String) : Option String :=
  detailedMergeStatus.bind fun status ↦ nonRetryableMergeStatuses.lookup status

/-- Decides after a refused merge whether to retry, or what to raise. -/
def handleMergeApiError (error : GitLabError) (iid : ℕ) (mr : MergeRequest) :
    Except ClientError Unit :=
  if (error.statusCode ≠ some 405 ∧ error.statusCode ≠ some 422) ∨ mr.hasConflicts = true then
    .error (.gitlab error)
  else
    match getMergeBlockReason mr.detailedMergeStatus with
    | some reason =>
        .error (.gitlab
          { kind := .conflict
            message := s!"MR !{iid} cannot be merged: {reason}"
            statusCode := error.statusCode })
    | none => .ok ()

/-- The remaining attempts of `merge_mr`. -/
def mergeAttempts (iid : ℕ) (expectedSha : Option String) :
    ℕ → ClientWorld → Except ClientError MergeRequest × ClientWorld
  | 0, w =>
      (.error (.gitlab
        { kind := .conflict
          message := s!"MR !{iid} merge status check timeout (status: 'checking')"
          statusCode := some 409 }), w)
  | attempts + 1, w =>
      match getMr settings tenacity iid w with
      | (.error e, w) => (.error e, w)
      | (.ok mr, w) =>
          if mr.state = .merged then (.ok mr, w)
          else
            match validateShaUnchanged iid expectedSha mr.sha with
            | .error e => (.error e, w)
            | .ok () =>
                if mr.mergeStatus = "checking" then mergeAttempts iid expectedSha attempts w
                else if mr.mergeStatus ≠ "can_be_merged" then
                  (.error (.gitlab
                    { kind := .conflict
                      message := s!"MR !{iid} cannot be merged: status is '{mr.mergeStatus}'"
                      statusCode := some 409 }), w)
                else
                  match executeMerge settings tenacity iid w with
                  | (.error (.gitlab e), w) =>
                      match handleMergeApiError e iid mr with
                      | .ok () => mergeAttempts iid expectedSha attempts w
                      | .error e => (.error e, w)
                  | result => result

def mergeMr (iid : ℕ) (expectedSha : Option String) (w : ClientWorld) :
    Except ClientError MergeRequest × ClientWorld :=
  mergeAttempts settings tenacity iid expectedSha settings.mergeStatusRetryMax w

end Request

/-! ## What a body tells -/

theorem parseMrSnapshot_world (out : Except ClientError Response × ClientWorld) :
    (parseMrSnapshot out).2 = out.2 := by
  obtain ⟨e | response, w⟩ := out
  · rfl
  · simp only [parseMrSnapshot, parseMergeRequest]
    split
    · rfl
    · split <;> rfl

/-- A merge request that is returned stands in the body, with all its labels. -/
theorem parseMrSnapshot_eq_ok {out : Except ClientError Response × ClientWorld} {mr : MergeRequest}
    (h : (parseMrSnapshot out).1 = .ok mr) :
    ∃ response, out.1 = .ok response ∧ response.labelsError = none ∧
      response.mergeRequest = some mr := by
  obtain ⟨e | response, w⟩ := out
  · cases h
  · refine ⟨response, rfl, ?_⟩
    simp only [parseMrSnapshot] at h
    cases hlabels : response.labelsError with
    | some message =>
        rw [hlabels] at h
        cases h
    | none =>
        rw [hlabels] at h
        simp only [parseMergeRequest] at h
        cases hbody : response.mergeRequest with
        | none =>
            rw [hbody] at h
            cases h
        | some mr' =>
            rw [hbody] at h
            cases h
            exact ⟨rfl, rfl⟩

/-! ## What a request sends -/

/-- The request merges. -/
def ApiRequest.isMerge : ApiRequest → Bool
  | .mergeMr _ _ _ => true
  | .getMr _ => false
  | .other _ _ => false

/-- From `w` to `w'` only the request `r` was sent, and a result that is a
response is the last answer. -/
def Sends {ε : Type} (r : ApiRequest) (w w' : ClientWorld) (result : Except ε Response) : Prop :=
  ∃ xs : List Sent, w'.trace = w.trace ++ xs ∧
    (∀ x ∈ xs, x.request = r ∧ (x.merged ≠ none → r.isMerge = true)) ∧
      ∀ response, result = .ok response →
        response.isSuccess = true ∧ ∃ x, xs.getLast? = some x ∧ x.answer = .response response

theorem handled_isMerge {x : Exchange} {head : String} {r : ApiRequest}
    (h : ClientWorld.handled x head r ≠ none) : r.isMerge = true := by
  cases r with
  | getMr iid => exact absurd rfl h
  | mergeMr iid method sha => rfl
  | other method path => exact absurd rfl h

theorem isSuccess_of_handleErrorResponse {response : Response}
    (h : handleErrorResponse response = .ok ()) : response.isSuccess = true := by
  by_contra hsuccess
  simp only [handleErrorResponse, if_neg hsuccess] at h
  split_ifs at h

theorem executeSingleRequest_sends (r : ApiRequest) (w : ClientWorld) :
    Sends r w (executeSingleRequest r w).2 (executeSingleRequest r w).1 := by
  let sent : Sent :=
    { request := r
      answer := w.nextExchange.answer
      merged := ClientWorld.handled w.nextExchange w.nextHead r }
  have hsent : ∀ x ∈ [sent], x.request = r ∧ (x.merged ≠ none → r.isMerge = true) := by
    intro x hx
    rw [List.mem_singleton.mp hx]
    exact ⟨rfl, handled_isMerge⟩
  cases hanswer : w.nextExchange.answer with
  | transportError =>
      simp only [executeSingleRequest, ClientWorld.send, hanswer]
      exact ⟨[sent], by simp [sent, hanswer], hsent, fun response h ↦ by cases h⟩
  | response response =>
      simp only [executeSingleRequest, ClientWorld.send, hanswer]
      cases herror : handleErrorResponse response with
      | error e => exact ⟨[sent], by simp [sent, hanswer], hsent, fun response h ↦ by cases h⟩
      | ok u =>
          refine ⟨[sent], by simp [sent, hanswer], hsent, ?_⟩
          rintro _ ⟨⟩
          exact ⟨isSuccess_of_handleErrorResponse herror, sent, rfl, hanswer⟩

theorem Sends.trans {ε δ : Type} {r : ApiRequest} {w w' w'' : ClientWorld}
    {first : Except ε Response} {result : Except δ Response} (h : Sends r w w' first)
    (h' : Sends r w' w'' result) : Sends r w w'' result := by
  obtain ⟨xs, hxs, hall, -⟩ := h
  obtain ⟨ys, hys, hall', hlast⟩ := h'
  refine ⟨xs ++ ys, by rw [hys, hxs, List.append_assoc], ?_, ?_⟩
  · intro x hx
    rcases List.mem_append.mp hx with hx | hx
    · exact hall x hx
    · exact hall' x hx
  · intro response hresponse
    obtain ⟨hsuccess, x, hx, hanswer⟩ := hlast response hresponse
    exact ⟨hsuccess, x, by rw [List.getLast?_append, hx]; rfl, hanswer⟩

theorem Sends.error {ε δ : Type} {r : ApiRequest} {w w' : ClientWorld}
    {result : Except ε Response} (h : Sends r w w' result) (e : δ) :
    Sends r w w' (.error e : Except δ Response) := by
  obtain ⟨xs, hxs, hall, -⟩ := h
  exact ⟨xs, hxs, hall, fun response h ↦ by cases h⟩

theorem Sends.ok {ε δ : Type} {r : ApiRequest} {w w' : ClientWorld} {response : Response}
    (h : Sends r w w' (.ok response : Except ε Response)) :
    Sends r w w' (.ok response : Except δ Response) := by
  obtain ⟨xs, hxs, hall, hlast⟩ := h
  exact ⟨xs, hxs, hall, fun response' h ↦ hlast response' (by cases h; rfl)⟩

theorem executeAttempts_sends (tenacity : Tenacity) (r : ApiRequest) (retries : ℕ)
    (w : ClientWorld) :
    Sends r w (executeAttempts tenacity r retries w).2
      (executeAttempts tenacity r retries w).1 := by
  induction retries generalizing w with
  | zero =>
      have hsingle := executeSingleRequest_sends r w
      rw [executeAttempts]
      generalize executeSingleRequest r w = out at hsingle ⊢
      obtain ⟨e | response, w'⟩ := out
      · by_cases hretry : e.retryable = true
        · simpa only [if_pos hretry] using hsingle.error _
        · simpa only [if_neg hretry] using hsingle.error _
      · exact hsingle.ok
  | succ retries ih =>
      have hsingle := executeSingleRequest_sends r w
      rw [executeAttempts]
      generalize executeSingleRequest r w = out at hsingle ⊢
      obtain ⟨e | response, w'⟩ := out
      · by_cases hretry : e.retryable = true
        · simpa only [if_pos hretry] using hsingle.trans (ih w')
        · simpa only [if_neg hretry] using hsingle.error _
      · exact hsingle.ok

theorem request_sends (settings : ClientSettings) (tenacity : Tenacity) (r : ApiRequest)
    (w : ClientWorld) :
    Sends r w (request settings tenacity r w).2 (request settings tenacity r w).1 := by
  rw [request]
  simp only [ClientWorld.tick]
  cases hbefore : w.breaker.beforeCall (w.clock w.ticks) with
  | error retryAfter =>
      exact ⟨[], (List.append_nil _).symm, by simp, fun response h ↦ by cases h⟩
  | ok breaker =>
      have hattempts := executeAttempts_sends tenacity r (settings.apiMaxRetries - 1)
        { w with ticks := w.ticks + 1, breaker }
      simp only [executeWithRetry]
      generalize executeAttempts tenacity r (settings.apiMaxRetries - 1)
        { w with ticks := w.ticks + 1, breaker } = out at hattempts ⊢
      obtain ⟨(e | (_ | e)) | response, w'⟩ := out
      · exact hattempts.error _
      · exact hattempts.error _
      · exact hattempts.error _
      · exact hattempts.ok

end MergeQueue
